import Mathlib.Data.List.Pairwise
import Mathlib.Data.List.Sort
import Mathlib.Data.String.Basic
import Mathlib.Order.Basic

/-!
# Keyset paging

A reader of a growing collection of rows asks for pages: the first rows, in the
order of a key, that lie after the key of the last row it received.  What a
reader has missed is a row that it did not receive and that lies at or before
its cursor.  No page makes up for a row that was missed, and no page misses
one; so a reader is complete exactly when every row was added after the cursor
of its moment.
-/

namespace GoatCitadel.Support

variable {α κ : Type*} [LinearOrder κ]

/-- A key lies after the cursor.  Every key lies after no cursor. -/
def After : Option κ → κ → Prop
  | none, _ => True
  | some cursor, k => cursor < k

instance (cursor : Option κ) (k : κ) : Decidable (After cursor k) :=
  match cursor with
  | none => .isTrue trivial
  | some c => inferInstanceAs (Decidable (c < k))

variable (key : α → κ)

/-- The first `limit` rows after the cursor, in the order of their keys. -/
def keysetPage (cursor : Option κ) (limit : Nat) (rows : List α) : List α :=
  ((rows.filter fun row => After cursor (key row)).insertionSort
    fun a b => key a ≤ key b).take limit

/-- The cursor of a reader: the key of the last row it received. -/
def cursorOf (received : List α) : Option κ :=
  received.getLast?.map key

/-- No row has been missed: a row was received or lies after the cursor. -/
def Complete (rows received : List α) : Prop :=
  ∀ row ∈ rows, row ∈ received ∨ After (cursorOf key received) (key row)

/-- The rows received are rows of the collection, with increasing keys. -/
structure ReadInOrder (rows received : List α) : Prop where
  mem : ∀ row ∈ received, row ∈ rows
  increasing : received.Pairwise fun a b => key a < key b

variable {key} {cursor : Option κ} {limit : Nat} {rows received : List α}

section Page

theorem mem_sorted {row : α} :
    row ∈ (rows.filter fun row => After cursor (key row)).insertionSort
        (fun a b => key a ≤ key b) ↔
      row ∈ rows ∧ After cursor (key row) := by
  rw [List.mem_insertionSort, List.mem_filter, decide_eq_true_eq]

theorem mem_keysetPage {row : α} (h : row ∈ keysetPage key cursor limit rows) :
    row ∈ rows ∧ After cursor (key row) :=
  mem_sorted.mp (List.mem_of_mem_take h)

theorem sorted_pairwise (cursor : Option κ) (rows : List α) :
    ((rows.filter fun row => After cursor (key row)).insertionSort
      fun a b => key a ≤ key b).Pairwise fun a b => key a ≤ key b := by
  have : Std.Total fun a b : α => key a ≤ key b := ⟨fun a b => le_total (key a) (key b)⟩
  have : IsTrans α fun a b : α => key a ≤ key b := ⟨fun _ _ _ h h' => le_trans h h'⟩
  exact List.pairwise_insertionSort _ _

/-- A row after the cursor is on the page or comes after every row of it. -/
theorem mem_page_or_le {row : α} (hrow : row ∈ rows) (hafter : After cursor (key row)) :
    row ∈ keysetPage key cursor limit rows ∨
      ∀ other ∈ keysetPage key cursor limit rows, key other ≤ key row := by
  have hsorted := @sorted_pairwise _ _ _ key cursor rows
  have hmem := mem_sorted.mpr ⟨hrow, hafter⟩
  rw [← List.take_append_drop limit (List.insertionSort _ _)] at hsorted hmem
  rcases List.mem_append.mp hmem with hpage | hrest
  · exact .inl hpage
  · refine .inr fun other hother => ?_
    exact (List.pairwise_append.mp hsorted).2.2 other hother row hrest

/-- An empty page says that nothing lies after the cursor. -/
theorem not_after_of_page_nil (hlimit : 1 ≤ limit)
    (h : keysetPage key cursor limit rows = []) :
    ∀ row ∈ rows, ¬After cursor (key row) := by
  intro row hrow hafter
  rcases List.take_eq_nil_iff.mp h with hzero | hnil
  · omega
  · have hmem := mem_sorted.mpr ⟨hrow, hafter⟩
    rw [hnil] at hmem
    cases hmem

/-- Rows that stand in the order of their keys are paged as they stand. -/
theorem keysetPage_of_increasing (h : rows.Pairwise fun a b => key a < key b) :
    keysetPage key cursor limit rows =
      (rows.filter fun row => After cursor (key row)).take limit := by
  unfold keysetPage
  rw [List.Pairwise.insertionSort_eq]
  exact (h.sublist List.filter_sublist).imp fun hlt => hlt.le

/-- Such rows are the ones up to a key and then the ones after it. -/
theorem filter_le_append_filter_lt {k : κ} (h : rows.Pairwise fun a b => key a < key b) :
    (rows.filter fun row => key row ≤ k) ++ (rows.filter fun row => k < key row) = rows := by
  induction rows with
  | nil => rfl
  | cons row rows ih =>
      obtain ⟨hhead, htail⟩ := List.pairwise_cons.mp h
      by_cases hrow : key row ≤ k
      · rw [List.filter_cons_of_pos (by simpa using hrow),
          List.filter_cons_of_neg (by simpa using hrow), List.cons_append, ih htail]
      · have hbefore : (rows.filter fun row => key row ≤ k) = [] := by
          rw [List.filter_eq_nil_iff]
          intro other hother
          have hlt : k < key other := (not_le.mp hrow).trans (hhead other hother)
          simpa using hlt
        have hrest := ih htail
        rw [hbefore, List.nil_append] at hrest
        rw [List.filter_cons_of_neg (by simpa using hrow),
          List.filter_cons_of_pos (by simpa using hrow), hbefore, List.nil_append, hrest]

/-- The rows up to the last one of a page are the rows before it and the page. -/
theorem filter_le_last_of_page {k : κ} {last : α}
    (h : rows.Pairwise fun a b => key a < key b)
    (hlast : (keysetPage key (some k) limit rows).getLast? = some last) :
    (rows.filter fun row => key row ≤ key last) =
      (rows.filter fun row => key row ≤ k) ++ keysetPage key (some k) limit rows := by
  have hafter : k < key last :=
    (mem_keysetPage (List.mem_of_getLast? hlast)).2
  have hpage := @keysetPage_of_increasing _ _ _ key (some k) limit rows h
  rw [hpage] at hlast ⊢
  generalize hpageEq : (rows.filter fun row => After (some k) (key row)).take limit = page at *
  generalize hrestEq : (rows.filter fun row => After (some k) (key row)).drop limit = rest
  have hrows : (rows.filter fun row => key row ≤ k) ++ (page ++ rest) = rows := by
    rw [← hpageEq, ← hrestEq, List.take_append_drop]
    exact filter_le_append_filter_lt h
  obtain ⟨front, hfront⟩ := List.getLast?_eq_some_iff.mp hlast
  have hincreasing := h
  rw [← hrows, List.pairwise_append, List.pairwise_append] at hincreasing
  obtain ⟨-, ⟨hwithin, -, hacross⟩, -⟩ := hincreasing
  have hbefore : ((rows.filter fun row => key row ≤ k).filter fun row => key row ≤ key last) =
      rows.filter fun row => key row ≤ k := by
    rw [List.filter_eq_self]
    intro row hrow
    have hle : key row ≤ k := by simpa using (List.mem_filter.mp hrow).2
    exact decide_eq_true (hle.trans hafter.le)
  have hpageFilter : (page.filter fun row => key row ≤ key last) = page := by
    rw [List.filter_eq_self]
    intro row hrow
    rw [hfront] at hrow hwithin
    obtain hmem | hmem := List.mem_append.mp hrow
    · have hlt := (List.pairwise_append.mp hwithin).2.2 row hmem last List.mem_cons_self
      exact decide_eq_true hlt.le
    · rw [List.mem_singleton.mp hmem]
      exact decide_eq_true le_rfl
  have hrest : (rest.filter fun row => key row ≤ key last) = [] := by
    rw [List.filter_eq_nil_iff]
    intro row hrow
    have hlt := hacross last (List.mem_of_getLast? hlast) row hrow
    simpa using hlt
  have hsplit := congrArg (List.filter fun row => decide (key row ≤ key last)) hrows
  rw [List.filter_append, List.filter_append, hbefore, hpageFilter, hrest,
    List.append_nil] at hsplit
  exact hsplit.symm

end Page

section Reader

theorem after_cursorOf_iff (hread : received.Pairwise fun a b => key a < key b) {k : κ} :
    After (cursorOf key received) k ↔ ∀ row ∈ received, key row < k := by
  rcases List.eq_nil_or_concat received with rfl | ⟨rest, last, rfl⟩
  · simp [cursorOf, After]
  · rw [List.concat_eq_append] at hread ⊢
    have hcursor : cursorOf key (rest ++ [last]) = some (key last) := by
      simp [cursorOf]
    rw [hcursor]
    constructor
    · intro hlast row hrow
      rcases List.mem_append.mp hrow with hrest | hsingle
      · have hlt := (List.pairwise_append.mp hread).2.2 row hrest last
          List.mem_cons_self
        exact lt_trans hlt hlast
      · rw [List.mem_singleton.mp hsingle]
        exact hlast
    · intro hall
      exact hall last (by simp)

/-- A page keeps what was received in order. -/
theorem ReadInOrder.page (h : ReadInOrder key rows received) (limit : Nat)
    (hkeys : rows.Pairwise fun a b => key a ≠ key b) :
    ReadInOrder key rows
      (received ++ keysetPage key (cursorOf key received) limit rows) where
  mem := by
    intro row hrow
    rcases List.mem_append.mp hrow with hold | hpage
    · exact h.mem row hold
    · exact (mem_keysetPage hpage).1
  increasing := by
    refine List.pairwise_append.mpr ⟨h.increasing, ?_, ?_⟩
    · have hle : (keysetPage key (cursorOf key received) limit rows).Pairwise
          fun a b => key a ≤ key b :=
        (sorted_pairwise (cursorOf key received) rows).sublist (List.take_sublist _ _)
      have hne : (keysetPage key (cursorOf key received) limit rows).Pairwise
          fun a b => key a ≠ key b := by
        refine List.Pairwise.sublist (List.take_sublist _ _) ?_
        refine (List.Perm.pairwise_iff (fun h => h.symm)
          (List.perm_insertionSort _ _)).mpr ?_
        exact hkeys.sublist List.filter_sublist
      exact hle.imp₂ (fun _ _ hle hne => lt_of_le_of_ne hle hne) hne
    · intro a ha b hb
      have hafter := (mem_keysetPage hb).2
      exact (after_cursorOf_iff h.increasing).mp hafter a ha

/-- A new row keeps what was received in order. -/
theorem ReadInOrder.add (h : ReadInOrder key rows received) (row : α) :
    ReadInOrder key (rows ++ [row]) received where
  mem := fun other hother => List.mem_append_left _ (h.mem other hother)
  increasing := h.increasing

/-- A page neither misses a row nor makes up for one. -/
theorem complete_page_iff (limit : Nat) (h : ReadInOrder key rows received)
    (hkeys : rows.Pairwise fun a b => key a ≠ key b) :
    Complete key rows (received ++ keysetPage key (cursorOf key received) limit rows) ↔
      Complete key rows received := by
  have hpaged := h.page limit hkeys
  constructor
  · intro hcomplete row hrow
    rcases hcomplete row hrow with hmem | hafter
    · rcases List.mem_append.mp hmem with hold | hpage
      · exact .inl hold
      · exact .inr (mem_keysetPage hpage).2
    · refine .inr ((after_cursorOf_iff h.increasing).mpr fun other hother => ?_)
      exact (after_cursorOf_iff hpaged.increasing).mp hafter other
        (List.mem_append_left _ hother)
  · intro hcomplete row hrow
    rcases hcomplete row hrow with hold | hafter
    · exact .inl (List.mem_append_left _ hold)
    · rcases mem_page_or_le hrow hafter with hpage | hle
      · exact .inl (List.mem_append_right _ hpage)
      · by_cases hmem : row ∈ received ++
            keysetPage key (cursorOf key received) limit rows
        · exact .inl hmem
        · refine .inr ((after_cursorOf_iff hpaged.increasing).mpr fun other hother => ?_)
          rcases List.mem_append.mp hother with hold | hpage
          · exact (after_cursorOf_iff h.increasing).mp hafter other hold
          · have hne : key other ≠ key row := by
              intro hsame
              have : Std.Symm fun a b : α => key a ≠ key b := ⟨fun _ _ h => h.symm⟩
              have hrows : other = row := by
                by_contra hdiffers
                exact hkeys.forall (mem_keysetPage hpage).1 hrow hdiffers hsame
              exact hmem (hrows ▸ List.mem_append_right _ hpage)
            exact lt_of_le_of_ne (hle other hpage) hne

/-- A new row is missed exactly when it does not lie after the cursor. -/
theorem complete_add_iff {row : α} (hnew : row ∉ received) :
    Complete key (rows ++ [row]) received ↔
      Complete key rows received ∧ After (cursorOf key received) (key row) := by
  constructor
  · intro h
    refine ⟨fun other hother => h other (List.mem_append_left _ hother), ?_⟩
    exact (h row (by simp)).resolve_left hnew
  · rintro ⟨h, hafter⟩ other hother
    rcases List.mem_append.mp hother with hold | hlast
    · exact h other hold
    · rw [List.mem_singleton.mp hlast]
      exact .inr hafter

/-- At an empty page a complete reader has received every row once, and only a
complete one has. -/
theorem perm_iff_complete (h : ReadInOrder key rows received)
    (hkeys : rows.Pairwise fun a b => key a ≠ key b) (hlimit : 1 ≤ limit)
    (hempty : keysetPage key (cursorOf key received) limit rows = []) :
    received.Perm rows ↔ Complete key rows received := by
  constructor
  · intro hperm row hrow
    exact .inl (hperm.mem_iff.mpr hrow)
  · intro hcomplete
    have hrows : rows.Nodup := hkeys.imp fun hne hsame => hne (congrArg key hsame)
    have hreceived : received.Nodup :=
      h.increasing.imp fun hlt hsame => hlt.ne (congrArg key hsame)
    refine (List.perm_ext_iff_of_nodup hreceived hrows).mpr fun row => ?_
    constructor
    · exact h.mem row
    · intro hrow
      exact (hcomplete row hrow).resolve_right (not_after_of_page_nil hlimit hempty row hrow)

end Reader

/-! ## Slices -/

section Slices

variable (key) in
/-- The rows in the order of their keys. -/
def inOrder (rows : List α) : List α :=
  rows.insertionSort fun a b => key a ≤ key b

theorem inOrder_increasing (hkeys : rows.Pairwise fun a b => key a ≠ key b) :
    (inOrder key rows).Pairwise fun a b => key a < key b := by
  have : Std.Total fun a b : α => key a ≤ key b := ⟨fun a b => le_total (key a) (key b)⟩
  have : IsTrans α fun a b : α => key a ≤ key b := ⟨fun _ _ _ h h' => le_trans h h'⟩
  have hle : (inOrder key rows).Pairwise fun a b => key a ≤ key b :=
    List.pairwise_insertionSort _ _
  have hne : (inOrder key rows).Pairwise fun a b => key a ≠ key b :=
    (List.Perm.pairwise_iff (fun h => h.symm) (List.perm_insertionSort _ _)).mpr hkeys
  exact hle.imp₂ (fun _ _ hle hne => lt_of_le_of_ne hle hne) hne

/-- Rows that are selected first are in the same order. -/
theorem inOrder_filter (hkeys : rows.Pairwise fun a b => key a ≠ key b) (p : α → Bool) :
    inOrder key (rows.filter p) = (inOrder key rows).filter p := by
  have hperm : (inOrder key (rows.filter p)).Perm ((inOrder key rows).filter p) :=
    (List.perm_insertionSort _ _).trans ((List.perm_insertionSort _ _).symm.filter p)
  refine @List.Perm.eq_of_pairwise _ (fun a b => key a < key b) _ _ ?_ ?_ ?_ hperm
  · intro a b _ _ hlt hgt
    exact absurd hlt hgt.asymm
  · exact inOrder_increasing (hkeys.sublist List.filter_sublist)
  · exact (inOrder_increasing hkeys).sublist List.filter_sublist

/-- The rows after a row are those behind its place. -/
theorem filter_after_getElem (h : rows.Pairwise fun a b => key a < key b) {i : Nat} {row : α}
    (hrow : rows[i]? = some row) :
    (rows.filter fun other => key row < key other) = rows.drop (i + 1) := by
  induction rows generalizing i with
  | nil => exact absurd hrow.symm (Option.some_ne_none row)
  | cons first rows ih =>
      obtain ⟨hhead, htail⟩ := List.pairwise_cons.mp h
      cases i with
      | zero =>
          obtain rfl := Option.some_inj.mp hrow
          rw [List.filter_cons_of_neg (by simp)]
          apply List.filter_eq_self.mpr
          intro other hother
          exact decide_eq_true (hhead other hother)
      | succ i =>
          have hlt := hhead row (List.mem_of_getElem? hrow)
          rw [List.filter_cons_of_neg (by simpa using hlt.le), ih htail hrow]
          rfl

/-- The page after a row is the slice behind its place. -/
theorem keysetPage_after (hkeys : rows.Pairwise fun a b => key a ≠ key b) {i : Nat} {row : α}
    (hrow : (inOrder key rows)[i]? = some row) :
    keysetPage key (some (key row)) limit rows =
      ((inOrder key rows).drop (i + 1)).take limit := by
  rw [← filter_after_getElem (inOrder_increasing hkeys) hrow, ← inOrder_filter hkeys]
  rfl

end Slices

/-! ## Following the cursors -/

section Pages

variable {ε γ : Type*}

/-- The pages from a cursor on, until one has no next cursor. -/
inductive Pages (page : Option γ → Except ε (List α × Option γ)) : Option γ → List α → Prop
  | last {cursor : Option γ} {items : List α} (h : page cursor = .ok (items, none)) :
      Pages page cursor items
  | more {cursor : Option γ} {items rest : List α} {next : γ}
      (h : page cursor = .ok (items, some next)) (hrest : Pages page (some next) rest) :
      Pages page cursor (items ++ rest)

/-- The page at an offset is the slice there, with the cursor of the next offset. -/
def SlicesAt (page : Option γ → Except ε (List α × Option γ)) (all : List α) (limit : Nat)
    (cursorAt : Nat → Option γ) (offset : Nat) : Prop :=
  page (cursorAt offset) = .ok ((all.drop offset).take limit,
    if offset + limit < all.length then cursorAt (offset + limit) else none)

variable {page : Option γ → Except ε (List α × Option γ)} {all received : List α}
  {cursorAt : Nat → Option γ}

/-- Pages that are slices give everything from the offset on. -/
theorem pages_of_slices (hlimit : 1 ≤ limit)
    (hcursor : ∀ offset, 1 ≤ offset → offset ≤ all.length → (cursorAt offset).isSome = true)
    {offset : Nat}
    (h : ∀ turns, offset + turns * limit < all.length ∨ turns = 0 →
      SlicesAt page all limit cursorAt (offset + turns * limit)) :
    Pages page (cursorAt offset) (all.drop offset) := by
  have hfirst : SlicesAt page all limit cursorAt offset := by
    have hzero := h 0 (.inr rfl)
    rwa [Nat.zero_mul, Nat.add_zero] at hzero
  unfold SlicesAt at hfirst
  by_cases hmore : offset + limit < all.length
  · rw [if_pos hmore] at hfirst
    obtain ⟨next, hnext⟩ := Option.isSome_iff_exists.mp
      (hcursor (offset + limit) (by omega) hmore.le)
    rw [hnext] at hfirst
    have hrest : Pages page (cursorAt (offset + limit)) (all.drop (offset + limit)) := by
      apply pages_of_slices hlimit hcursor
      intro turns hturns
      have hstep : offset + (turns + 1) * limit = offset + limit + turns * limit := by
        rw [Nat.add_mul, Nat.one_mul]
        omega
      rw [← hstep]
      apply h
      obtain hlt | rfl := hturns
      · left
        rwa [hstep]
      · left
        rwa [Nat.zero_add, Nat.one_mul]
    rw [hnext] at hrest
    have hsplit : all.drop offset = (all.drop offset).take limit ++ all.drop (offset + limit) := by
      rw [← List.drop_drop, List.take_append_drop]
    rw [hsplit]
    exact .more hfirst hrest
  · rw [if_neg hmore] at hfirst
    have hwhole : (all.drop offset).take limit = all.drop offset := by
      apply List.take_of_length_le
      rw [List.length_drop]
      omega
    rw [hwhole] at hfirst
    exact .last hfirst
termination_by all.length - offset

/-- What is received determines the pages that were asked for. -/
theorem Pages.step {offset : Nat} (h : Pages page (cursorAt offset) received)
    (hslices : SlicesAt page all limit cursorAt offset)
    (hmore : offset + limit < all.length)
    (hcursor : (cursorAt (offset + limit)).isSome = true) :
    ∃ rest, Pages page (cursorAt (offset + limit)) rest := by
  unfold SlicesAt at hslices
  rw [if_pos hmore] at hslices
  obtain ⟨next, hnext⟩ := Option.isSome_iff_exists.mp hcursor
  rw [hnext] at hslices ⊢
  cases h with
  | last h =>
      rw [hslices] at h
      exact absurd (Prod.mk.inj (Except.ok.inj h)).2 (Option.some_ne_none next)
  | more h hrest =>
      rw [hslices] at h
      obtain rfl := Option.some_inj.mp (Prod.mk.inj (Except.ok.inj h)).2
      exact ⟨_, hrest⟩

/-- A page that is followed was read. -/
theorem Pages.read {cursor : Option γ} (h : Pages page cursor received) :
    ∃ items next, page cursor = .ok (items, next) := by
  cases h with
  | last h => exact ⟨_, _, h⟩
  | more h _ => exact ⟨_, _, h⟩

end Pages

/-! ## Text keys -/

/-- The text columns are totally ordered. -/
structure TextOrder (le : String → String → Bool) : Prop where
  total : ∀ a b, le a b = true ∨ le b a = true
  trans : ∀ a b c, le a b = true → le b c = true → le a c = true
  antisymm : ∀ a b, le a b = true → le b a = true → a = b

/-- The order of code points. -/
theorem codePoint_textOrder : TextOrder fun a b : String => decide (a ≤ b) where
  total a b := by
    rw [decide_eq_true_iff, decide_eq_true_iff]
    exact le_total a b
  trans a b c h h' := decide_eq_true (le_trans (of_decide_eq_true h) (of_decide_eq_true h'))
  antisymm a b h h' := le_antisymm (of_decide_eq_true h) (of_decide_eq_true h')

/-- A text of a column. -/
@[ext]
structure ColumnText {le : String → String → Bool} (order : TextOrder le) where
  text : String

instance {le : String → String → Bool} (order : TextOrder le) :
    DecidableEq (ColumnText order) :=
  fun _ _ => decidable_of_iff _ ColumnText.ext_iff.symm

instance {le : String → String → Bool} (order : TextOrder le) :
    LinearOrder (ColumnText order) where
  le a b := le a.text b.text = true
  le_refl a := (order.total a.text a.text).elim id id
  le_trans a b c := order.trans a.text b.text c.text
  le_antisymm a b h h' := ColumnText.ext (order.antisymm a.text b.text h h')
  le_total a b := order.total a.text b.text
  toDecidableLE a b := inferInstanceAs (Decidable (le a.text b.text = true))
  toDecidableEq := inferInstance

end GoatCitadel.Support
