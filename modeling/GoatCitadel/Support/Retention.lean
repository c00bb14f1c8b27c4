import Mathlib.Algebra.BigOperators.Group.List.Basic
import Mathlib.Algebra.GroupWithZero.Nat
import GoatCitadel.Support.Keyset

/-!
# Retention

Rows in the order of their keys are grouped, and of each group the newest ones are kept.  Then
rows are taken from the front of a list until what is left is no longer over a budget.  How far
that goes is decided by the sizes in front of each row alone, and so is whether it follows an
order other than the one the rows stand in.
-/

namespace GoatCitadel.Support

/-! ## Keeping the newest rows -/

section Newest

variable {α κ : Type*} [LinearOrder κ] {key : α → κ} {rows : List α}

/-- The rows that come after a row. -/
def newerThan (key : α → κ) (rows : List α) (row : α) : List α :=
  rows.filter fun other => key row < key other

theorem newerThan_cons_of_lt {first row : α} (h : key first < key row) :
    newerThan key (first :: rows) row = newerThan key rows row :=
  List.filter_cons_of_neg (by simpa using h.le)

theorem newerThan_head {first : α} (h : ∀ row ∈ rows, key first < key row) :
    newerThan key (first :: rows) first = rows := by
  unfold newerThan
  rw [List.filter_cons_of_neg (by simp)]
  exact List.filter_eq_self.mpr fun row hrow => decide_eq_true (h row hrow)

/-- The last rows are those with fewer than so many after them. -/
theorem drop_eq_newest (h : rows.Pairwise fun a b => key a < key b) (keep : ℕ) :
    rows.drop (rows.length - keep) =
      rows.filter fun row => !decide (keep ≤ (newerThan key rows row).length) := by
  induction rows with
  | nil => exact List.drop_nil
  | cons first rows ih =>
      obtain ⟨hhead, htail⟩ := List.pairwise_cons.mp h
      have hrest : (rows.filter fun row =>
            !decide (keep ≤ (newerThan key (first :: rows) row).length)) =
          rows.filter fun row => !decide (keep ≤ (newerThan key rows row).length) := by
        apply List.filter_congr
        intro row hrow
        rw [newerThan_cons_of_lt (hhead row hrow)]
      rw [List.filter_cons, hrest, newerThan_head hhead, ← ih htail, List.length_cons]
      by_cases hkeep : keep ≤ rows.length
      · rw [if_neg (by simpa using hkeep), Nat.succ_sub hkeep, List.drop_succ_cons]
      · have hall : rows.length + 1 - keep = 0 := by omega
        have hnone : rows.length - keep = 0 := by omega
        rw [if_pos (by simpa using hkeep), hall, hnone, List.drop_zero, List.drop_zero]

/-- The rows in front of them are the others. -/
theorem mem_take_iff_outdated (h : rows.Pairwise fun a b => key a < key b) {keep : ℕ} {row : α} :
    row ∈ rows.take (rows.length - keep) ↔
      row ∈ rows ∧ keep ≤ (newerThan key rows row).length := by
  have hdrop : row ∈ rows.drop (rows.length - keep) ↔
      row ∈ rows ∧ ¬keep ≤ (newerThan key rows row).length := by
    rw [drop_eq_newest h, List.mem_filter, Bool.not_eq_true', decide_eq_false_iff_not]
  have hnodup : rows.Nodup := h.imp fun hlt hsame => hlt.ne (congrArg key hsame)
  have happend : row ∈ rows ↔
      row ∈ rows.take (rows.length - keep) ∨ row ∈ rows.drop (rows.length - keep) := by
    rw [← List.mem_append, List.take_append_drop]
  have hdisjoint := List.disjoint_take_drop hnodup (Nat.le_refl (rows.length - keep))
  constructor
  · intro htake
    have hmem := happend.mpr (.inl htake)
    refine ⟨hmem, ?_⟩
    by_contra hnewer
    exact hdisjoint htake (hdrop.mpr ⟨hmem, hnewer⟩)
  · rintro ⟨hmem, hnewer⟩
    exact (happend.mp hmem).resolve_right fun hlast => (hdrop.mp hlast).2 hnewer

end Newest

/-! ## Groups -/

section Groups

variable {α γ δ κ : Type*} [DecidableEq γ] [LinearOrder δ] [LinearOrder κ] {group : α → γ}
  {rank : γ → δ} {key : α → κ} {rows : List α}

/-- The rows of each group, the groups in the order in which they first appear. -/
def groupsOf (group : α → γ) (rows : List α) : List (List α) :=
  ((rows.map group).eraseDups).map fun name => rows.filter fun row => group row = name

/-- The rows of a least group stand in front. -/
theorem filter_least_append (hrank : rank.Injective) {name : γ}
    (h : rows.Pairwise fun a b => rank (group a) ≤ rank (group b))
    (hleast : ∀ row ∈ rows, rank name ≤ rank (group row)) :
    (rows.filter fun row => group row = name) ++
      (rows.filter fun row => !(group row == name)) = rows := by
  induction rows with
  | nil => rfl
  | cons first rows ih =>
      obtain ⟨hhead, htail⟩ := List.pairwise_cons.mp h
      have hrest := ih htail fun row hrow => hleast row (List.mem_cons_of_mem first hrow)
      by_cases hname : group first = name
      · rw [List.filter_cons_of_pos (by simpa using hname),
          List.filter_cons_of_neg (by simpa using hname), List.cons_append, hrest]
      · have hlt : rank name < rank (group first) :=
          lt_of_le_of_ne (hleast first List.mem_cons_self) (hrank.ne (Ne.symm hname))
        have hothers : ∀ row ∈ first :: rows, group row ≠ name := by
          intro row hrow
          obtain rfl | hrow := List.mem_cons.mp hrow
          · exact hname
          · intro hsame
            exact (lt_of_lt_of_le hlt (hhead row hrow)).ne' (congrArg rank hsame)
        have hnone : (first :: rows).filter (fun row => group row = name) = [] :=
          List.filter_eq_nil_iff.mpr fun row hrow => by simpa using hothers row hrow
        have hall : (first :: rows).filter (fun row => !(group row == name)) = first :: rows :=
          List.filter_eq_self.mpr fun row hrow => by simpa using hothers row hrow
        rw [hnone, hall, List.nil_append]

/-- In rows that stand in the order of their groups, each group is one stretch. -/
theorem flatten_groupsOf (hrank : rank.Injective)
    (h : rows.Pairwise fun a b => rank (group a) ≤ rank (group b)) :
    (groupsOf group rows).flatten = rows := by
  induction hlength : rows.length using Nat.strong_induction_on generalizing rows with
  | _ n ih =>
    cases rows with
    | nil => rfl
    | cons first rows =>
        obtain ⟨hhead, htail⟩ := List.pairwise_cons.mp h
        let others := rows.filter fun row => !(group row == group first)
        have hnames : (rows.map group).filter (fun name => !(name == group first)) =
            others.map group := List.filter_map
        have hgroups : groupsOf group (first :: rows) =
            ((first :: rows).filter fun row => group row = group first) ::
              groupsOf group others := by
          unfold groupsOf
          rw [List.map_cons, List.eraseDups_cons, List.map_cons, hnames]
          congr 1
          apply List.map_congr_left
          intro name hname
          obtain ⟨row, hrow, rfl⟩ := List.mem_map.mp (List.mem_eraseDups.mp hname)
          -- no row of the first group is a row of this one
          have hdiffers : group row ≠ group first := by
            simpa using (List.mem_filter.mp hrow).2
          rw [List.filter_cons_of_neg (by simpa using Ne.symm hdiffers), List.filter_filter]
          apply List.filter_congr
          intro other _
          by_cases hsame : group other = group row
          · simp [hsame, hdiffers]
          · simp [hsame]
        have hless : others.length < n := by
          rw [← hlength, List.length_cons]
          exact Nat.lt_succ_of_le (List.length_filter_le _ _)
        have hleast : ∀ row ∈ first :: rows, rank (group first) ≤ rank (group row) := by
          intro row hrow
          obtain rfl | hrow := List.mem_cons.mp hrow
          · exact le_rfl
          · exact hhead row hrow
        have hsplit := filter_least_append hrank h hleast
        have hthose : (first :: rows).filter (fun row => !(group row == group first)) = others :=
          List.filter_cons_of_neg (by simp)
        rw [hthose] at hsplit
        rw [hgroups, List.flatten_cons, ih _ hless (htail.sublist List.filter_sublist) rfl,
          hsplit]

/-- The members of a group stand in the order of their keys. -/
theorem group_increasing (h : rows.Pairwise fun a b => group a = group b → key a < key b)
    {members : List α} (hmembers : members ∈ groupsOf group rows) :
    members.Pairwise fun a b => key a < key b := by
  obtain ⟨name, -, rfl⟩ := List.mem_map.mp hmembers
  rw [List.pairwise_filter]
  refine h.imp fun hlt ha hb => hlt ?_
  rw [of_decide_eq_true ha, of_decide_eq_true hb]

/-- The members of a row's group. -/
def groupOf (group : α → γ) (rows : List α) (row : α) : List α :=
  rows.filter fun other => group other = group row

theorem eq_groupOf {members : List α} (hmembers : members ∈ groupsOf group rows) {row : α}
    (hrow : row ∈ members) : members = groupOf group rows row := by
  obtain ⟨name, -, rfl⟩ := List.mem_map.mp hmembers
  obtain rfl := of_decide_eq_true (List.mem_filter.mp hrow).2
  rfl

/-- The last members of every group are the rows with fewer than so many members after them. -/
theorem newest_of_groups (hrank : rank.Injective)
    (hgroups : rows.Pairwise fun a b => rank (group a) ≤ rank (group b))
    (hkeys : rows.Pairwise fun a b => group a = group b → key a < key b) (keep : ℕ) :
    ((groupsOf group rows).flatMap fun members => members.drop (members.length - keep)) =
      rows.filter fun row =>
        !decide (keep ≤ (newerThan key (groupOf group rows row) row).length) := by
  let fresh : α → Bool := fun row =>
    !decide (keep ≤ (newerThan key (groupOf group rows row) row).length)
  have hrows : rows.filter fresh = ((groupsOf group rows).map (List.filter fresh)).flatten := by
    rw [← List.filter_flatten, flatten_groupsOf hrank hgroups]
  rw [hrows, List.flatMap_def]
  congr 1
  apply List.map_congr_left
  intro members hmembers
  rw [drop_eq_newest (group_increasing hkeys hmembers)]
  apply List.filter_congr
  intro row hrow
  change _ = !decide (keep ≤ (newerThan key (groupOf group rows row) row).length)
  rw [← eq_groupOf hmembers hrow]

/-- The members in front of them are the others. -/
theorem mem_oldest_of_groups (hkeys : rows.Pairwise fun a b => group a = group b → key a < key b)
    {keep : ℕ} {row : α} :
    (row ∈ (groupsOf group rows).flatMap fun members => members.take (members.length - keep)) ↔
      row ∈ rows ∧ keep ≤ (newerThan key (groupOf group rows row) row).length := by
  rw [List.mem_flatMap]
  constructor
  · rintro ⟨members, hmembers, hrow⟩
    obtain ⟨hmem, hnewer⟩ :=
      (mem_take_iff_outdated (group_increasing hkeys hmembers)).mp hrow
    have hgroup := eq_groupOf hmembers hmem
    rw [hgroup] at hmem hnewer
    exact ⟨(List.mem_filter.mp hmem).1, hnewer⟩
  · rintro ⟨hrow, hnewer⟩
    have hgroup : groupOf group rows row ∈ groupsOf group rows :=
      List.mem_map.mpr
        ⟨group row, List.mem_eraseDups.mpr (List.mem_map_of_mem hrow), rfl⟩
    refine ⟨_, hgroup, (mem_take_iff_outdated (group_increasing hkeys hgroup)).mpr ⟨?_, hnewer⟩⟩
    exact List.mem_filter.mpr ⟨hrow, decide_eq_true rfl⟩

end Groups

/-! ## Eviction to a budget -/

variable {α : Type*} (size : α → ℕ) (tooMuch : ℤ → Bool)

/-- What the rows take up together. -/
def totalSize (rows : List α) : ℕ :=
  (rows.map size).sum

/-- The rows that are taken while `left` is too much. -/
def taken : List α → ℤ → List α
  | [], _ => []
  | row :: rows, left =>
      if tooMuch left then row :: taken rows (left - size row) else []

variable {size tooMuch} {rows : List α} {left : ℤ}

@[simp]
theorem totalSize_nil : totalSize size [] = 0 :=
  rfl

@[simp]
theorem totalSize_cons (row : α) (rows : List α) :
    totalSize size (row :: rows) = size row + totalSize size rows := by
  unfold totalSize
  rw [List.map_cons, List.sum_cons]

theorem totalSize_append (rows rest : List α) :
    totalSize size (rows ++ rest) = totalSize size rows + totalSize size rest := by
  unfold totalSize
  rw [List.map_append, List.sum_append]

theorem totalSize_perm {rest : List α} (h : rows.Perm rest) :
    totalSize size rows = totalSize size rest :=
  (h.map size).sum_eq

/-- The rows of a selection and the others take up what all take up. -/
theorem totalSize_filter_add (p : α → Bool) (rows : List α) :
    totalSize size (rows.filter p) + totalSize size (rows.filter fun row => !p row) =
      totalSize size rows := by
  rw [← totalSize_append]
  exact totalSize_perm (List.filter_append_perm p rows)

theorem taken_front (rows : List α) (left : ℤ) : taken size tooMuch rows left <+: rows := by
  induction rows generalizing left with
  | nil => exact List.prefix_rfl
  | cons row rows ih =>
      unfold taken
      by_cases hover : tooMuch left = true
      · rw [if_pos hover]
        exact List.prefix_cons_inj row |>.mpr (ih _)
      · rw [if_neg hover]
        exact List.nil_prefix

theorem taken_of_not_over (h : tooMuch left = false) : taken size tooMuch rows left = [] := by
  cases rows with
  | nil => rfl
  | cons row rows =>
      unfold taken
      rw [if_neg (ne_true_of_eq_false h)]

/-- Where the budget is still exceeded afterwards, every row has been taken. -/
theorem taken_of_over (h : tooMuch (left - totalSize size (taken size tooMuch rows left)) = true) :
    taken size tooMuch rows left = rows := by
  induction rows generalizing left with
  | nil => rfl
  | cons row rows ih =>
      by_cases hover : tooMuch left = true
      · have hstep : taken size tooMuch (row :: rows) left =
            row :: taken size tooMuch rows (left - size row) := if_pos hover
        rw [hstep, totalSize_cons, Int.natCast_add, ← Int.sub_sub] at h
        rw [hstep, ih h]
      · rw [taken_of_not_over (eq_false_of_ne_true hover), totalSize_nil, Int.natCast_zero,
          Int.sub_zero] at h
        exact absurd h hover

/-- What is over the budget is so with more as well. -/
def Rises (tooMuch : ℤ → Bool) : Prop :=
  ∀ a b, a ≤ b → tooMuch a = true → tooMuch b = true

/-- A row is reached exactly when the rows in front of it are not enough. -/
theorem lt_length_taken_iff (hover : Rises tooMuch) {i : ℕ} :
    i < (taken size tooMuch rows left).length ↔
      i < rows.length ∧ tooMuch (left - totalSize size (rows.take i)) = true := by
  induction rows generalizing i left with
  | nil => simp [taken]
  | cons row rows ih =>
      by_cases hleft : tooMuch left = true
      · have hstep : taken size tooMuch (row :: rows) left =
            row :: taken size tooMuch rows (left - size row) := if_pos hleft
        rw [hstep]
        cases i with
        | zero => simp [hleft]
        | succ i =>
            rw [List.length_cons, List.length_cons, Nat.add_lt_add_iff_right,
              Nat.add_lt_add_iff_right, ih, List.take_succ_cons, totalSize_cons, Int.natCast_add,
              Int.sub_sub]
      · rw [taken_of_not_over (eq_false_of_ne_true hleft)]
        constructor
        · intro h
          exact absurd h (Nat.not_lt_zero i)
        · rintro ⟨-, h⟩
          -- less would be left than at the start
          have hle : left - totalSize size ((row :: rows).take i) ≤ left := by omega
          exact absurd (hover _ _ hle h) hleft

/-- No row stands behind one it comes before in `r`, with the budget met between the two. -/
def EvictsInOrder (size : α → ℕ) (tooMuch : ℤ → Bool) (r : α → α → Prop) (rows : List α)
    (left : ℤ) : Prop :=
  ∀ i j row other, rows[i]? = some row → rows[j]? = some other → r other row →
    tooMuch (left - totalSize size (rows.take i)) = true →
      tooMuch (left - totalSize size (rows.take j)) = true

theorem mem_taken_iff (hover : Rises tooMuch) (hrows : rows.Nodup) {i : ℕ} {row : α}
    (hrow : rows[i]? = some row) :
    row ∈ taken size tooMuch rows left ↔
      tooMuch (left - totalSize size (rows.take i)) = true := by
  obtain ⟨hi, hget⟩ := List.getElem?_eq_some_iff.mp hrow
  have htaken : taken size tooMuch rows left = rows.take (taken size tooMuch rows left).length :=
    List.prefix_iff_eq_take.mp (taken_front rows left)
  have hreach := @lt_length_taken_iff _ size tooMuch rows left hover i
  rw [htaken, List.mem_take_iff_getElem]
  constructor
  · rintro ⟨j, hj, hsame⟩
    obtain rfl : j = i := (hrows.getElem_inj_iff).mp (hsame.trans hget.symm)
    exact (hreach.mp (lt_of_lt_of_le hj (Nat.min_le_left _ _))).2
  · intro h
    exact ⟨i, Nat.lt_min.mpr ⟨hreach.mpr ⟨hi, h⟩, hi⟩, hget⟩

/-- The rows that are left do not come before the taken ones in another order, exactly when the
rows are evicted in that order. -/
theorem left_not_before_iff (hover : Rises tooMuch) (hrows : rows.Nodup) {r : α → α → Prop} :
    (∀ row ∈ taken size tooMuch rows left, ∀ other ∈ rows, other ∉ taken size tooMuch rows left →
        ¬r other row) ↔
      EvictsInOrder size tooMuch r rows left := by
  constructor
  · intro h i j row other hrow hother hbefore hreached
    by_contra hkept
    have hmem := List.mem_of_getElem? hother
    apply h row ((mem_taken_iff hover hrows hrow).mpr hreached) other hmem ?_ hbefore
    rwa [mem_taken_iff hover hrows hother]
  · intro h row hrow other hother hkept hbefore
    obtain ⟨i, hi⟩ := List.mem_iff_getElem?.mp ((taken_front rows left).subset hrow)
    obtain ⟨j, hj⟩ := List.mem_iff_getElem?.mp hother
    apply hkept
    rw [mem_taken_iff hover hrows hj]
    exact h i j row other hi hj hbefore ((mem_taken_iff hover hrows hi).mp hrow)

end GoatCitadel.Support
