import GoatCitadel.Sandbox.Ipv6Mapped

/-!
# The verdict on an address

The prefixes that the guard compares are read as statements on the first groups of
the address.  Together with the reading of mapped addresses and of the groups this
tells for which texts the verdict is that on the address.
-/

namespace GoatCitadel.Sandbox

open GoatCitadel.Support

/-! ## The first groups of a text -/

namespace Ipv6Literal

variable {literal : Ipv6Literal} {first second : List Char} {rest : List (List Char)}

/-- A text without a group in front begins with `::` and zeros. -/
theorem text_of_before_nil (h : literal.before = []) :
    (∃ more, literal.text = ':' :: ':' :: more) ∧ literal.addressGroups.head? = some 0 := by
  have hsize := literal.size
  cases hafter : literal.after with
  | none =>
      rw [h, hafter] at hsize
      cases hquad : literal.quad <;> rw [hquad] at hsize <;> cases hsize
  | some groups =>
      rw [h, hafter] at hsize
      simp only [MakesAddress, List.length_nil] at hsize
      have hfill : 8 - 0 - groups.length - 2 * literal.quad.toList.length =
          (7 - groups.length - 2 * literal.quad.toList.length) + 1 := by omega
      rw [literal.text_of_some hafter, literal.addressGroups_of_some hafter, h,
        List.length_nil, hfill, List.replicate_succ]
      exact ⟨⟨_, rfl⟩, rfl⟩

/-- A single group in front of `::` is followed by zeros. -/
theorem text_of_before_singleton (h : literal.before = [first]) :
    (∃ more, literal.text = first ++ ':' :: ':' :: more) ∧
      ∃ more, literal.addressGroups = parseHex first :: 0 :: more := by
  have hsize := literal.size
  cases hafter : literal.after with
  | none =>
      rw [h, hafter] at hsize
      cases hquad : literal.quad <;> rw [hquad] at hsize <;> cases hsize
  | some groups =>
      rw [h, hafter] at hsize
      simp only [MakesAddress, List.length_singleton] at hsize
      have hfill : 8 - 1 - groups.length - 2 * literal.quad.toList.length =
          (6 - groups.length - 2 * literal.quad.toList.length) + 1 := by omega
      rw [literal.text_of_some hafter, literal.addressGroups_of_some hafter, h,
        List.intercalate_singleton, List.length_singleton, hfill, List.replicate_succ]
      exact ⟨⟨_, rfl⟩, ⟨_, rfl⟩⟩

theorem text_of_before_cons_cons (h : literal.before = first :: second :: rest) :
    (∃ more, literal.text = first ++ ':' :: (second ++ ':' :: more)) ∧
      ∃ more, literal.addressGroups = parseHex first :: parseHex second :: more := by
  have hsize := literal.size
  cases hafter : literal.after with
  | none =>
      rw [h, hafter] at hsize
      have hmore : rest ++ literal.dotted ≠ [] := by
        intro hnil
        obtain ⟨rfl, hdotted⟩ := List.append_eq_nil_iff.mp hnil
        have hquad : literal.quad.toList = [] := List.map_eq_nil_iff.mp hdotted
        rw [hquad] at hsize
        cases hsize
      rw [literal.text_of_none hafter, literal.addressGroups_of_none hafter, h,
        List.cons_append, List.cons_append, intercalate_cons (List.cons_ne_nil _ _),
        intercalate_cons hmore]
      exact ⟨⟨_, rfl⟩, ⟨_, rfl⟩⟩
  | some groups =>
      rw [literal.text_of_some hafter, literal.addressGroups_of_some hafter, h,
        intercalate_cons (List.cons_ne_nil _ _)]
      refine ⟨?_, ⟨_, rfl⟩⟩
      cases rest with
      | nil => exact ⟨_, by rw [List.intercalate_singleton, List.append_assoc]; rfl⟩
      | cons third rest =>
          rw [intercalate_cons (List.cons_ne_nil _ _)]
          exact ⟨_, by simp; rfl⟩

end Ipv6Literal

/-! ## Prefixes -/

theorem foldl_hex_ge (part : List Char) (value : Nat) :
    16 ^ part.length * value ≤
      part.foldl (fun value c => 16 * value + hexDigitValue c) value := by
  induction part generalizing value with
  | nil => simp
  | cons c part ih =>
      calc
        16 ^ (c :: part).length * value = 16 ^ part.length * (16 * value) := by
          rw [List.length_cons, Nat.pow_succ, Nat.mul_assoc]
        _ ≤ 16 ^ part.length * (16 * value + hexDigitValue c) :=
          Nat.mul_le_mul_left _ (Nat.le_add_right _ _)
        _ ≤ _ := ih _

/-- What a prefix says about the number of a group. -/
theorem parseHex_append_range {front back : List Char} (h : isGroup (front ++ back) = true) :
    16 ^ back.length * parseHex front ≤ parseHex (front ++ back) ∧
      parseHex (front ++ back) < 16 ^ back.length * (parseHex front + 1) := by
  have hback : ∀ c ∈ back, isHexDigit c = true :=
    fun c hc => (isGroup_iff.mp h).2 c (List.mem_append_right _ hc)
  have hfold : parseHex (front ++ back) =
      back.foldl (fun value c => 16 * value + hexDigitValue c) (parseHex front) := by
    rw [parseHex, List.foldl_append]
    rfl
  rw [hfold]
  exact ⟨foldl_hex_ge back _, foldl_hex_lt hback _⟩

/-- A prefix without the separator is a prefix of the first part. -/
theorem prefix_of_prefix_append {start first more : List Char} (h : ':' ∉ start)
    (hfront : start <+: first ++ ':' :: more) : start <+: first := by
  induction start generalizing first with
  | nil => exact List.nil_prefix
  | cons c start ih =>
      cases first with
      | nil =>
          obtain ⟨rfl, -⟩ := List.cons_prefix_cons.mp hfront
          exact absurd List.mem_cons_self h
      | cons d first =>
          obtain ⟨rfl, hrest⟩ := List.cons_prefix_cons.mp hfront
          refine List.cons_prefix_cons.mpr ⟨rfl, ih ?_ hrest⟩
          exact fun hmem => h (List.mem_cons_of_mem c hmem)

theorem localPrefix_range {start : List Char} (h : start ∈ localPrefixes) :
    start.length = 2 ∧ 0xfc ≤ parseHex start ∧ parseHex start ≤ 0xfd ∨
      start.length = 3 ∧ 0xfe8 ≤ parseHex start ∧ parseHex start ≤ 0xfef := by
  revert start
  decide +kernel

theorem not_mem_localPrefix {start : List Char} (h : start ∈ localPrefixes) : ':' ∉ start := by
  revert start
  decide +kernel

/-- A first group that begins like a local one is local when it has four digits,
and small otherwise. -/
theorem range_of_localPrefix {start first : List Char} (hstart : start ∈ localPrefixes)
    (hfirst : isGroup first = true) (h : start <+: first) :
    (first.length = 4 ∧ (parseHex first / 512 = 126 ∨ parseHex first / 64 = 1018 ∨
        parseHex first / 64 = 1019)) ∨
      first.length < 4 ∧ 0xfc ≤ parseHex first ∧ parseHex first < 0x1000 := by
  obtain ⟨back, rfl⟩ := h
  obtain ⟨hlower, hupper⟩ := parseHex_append_range hfirst
  have hle := (isGroup_iff.mp hfirst).1.2
  rw [List.length_append] at hle ⊢
  rcases localPrefix_range hstart with ⟨hlength, hrange⟩ | ⟨hlength, hrange⟩
  · have hback : back.length = 0 ∨ back.length = 1 ∨ back.length = 2 := by omega
    rcases hback with hback | hback | hback <;>
      simp only [hback, hlength, Nat.reducePow, true_and] at hlower hupper ⊢ <;> omega
  · have hback : back.length = 0 ∨ back.length = 1 := by omega
    rcases hback with hback | hback <;>
      simp only [hback, hlength, Nat.reducePow, true_and] at hlower hupper ⊢ <;> omega

/-- A local first group begins with one of the prefixes. -/
theorem localPrefix_of_range {first : List Char} (hfirst : isGroup first = true)
    (h : parseHex first / 512 = 126 ∨ parseHex first / 64 = 1018 ∨
      parseHex first / 64 = 1019) :
    ∃ start ∈ localPrefixes, start <+: first := by
  have hfour : first.length = 4 := by
    have hlarge := le_length_of_parseHex hfirst (by omega : 16 ^ 3 ≤ parseHex first)
    have hle := (isGroup_iff.mp hfirst).1.2
    omega
  obtain ⟨a, b, c, d, rfl⟩ := exists_four hfour
  obtain ⟨-, hdigits⟩ := isGroup_iff.mp hfirst
  simp only [List.forall_mem_cons] at hdigits
  obtain ⟨ha, hb, hc, hd, -⟩ := hdigits
  have hvalue : parseHex [a, b, c, d] = 4096 * hexDigitValue a + 256 * hexDigitValue b +
      16 * hexDigitValue c + hexDigitValue d := by
    simp only [parseHex, List.foldl_cons, List.foldl_nil]
    omega
  have hale := hexDigitValue_le ha
  have hble := hexDigitValue_le hb
  have hcle := hexDigitValue_le hc
  have hdle := hexDigitValue_le hd
  rw [hvalue] at h
  have hchar : ∀ {x : Char}, isHexDigit x = true → x = Nat.digitChar (hexDigitValue x) := by
    intro x hx
    have hdigit := digitChar_hex (Nat.lt_succ_of_le (hexDigitValue_le hx))
    exact hexDigitValue_inj hx hdigit.1 hdigit.2.symm
  have hfirstDigit : hexDigitValue a = 15 := by omega
  have hsecondDigit : hexDigitValue b = 12 ∨ hexDigitValue b = 13 ∨
      hexDigitValue b = 14 ∧ 8 ≤ hexDigitValue c := by omega
  rw [hchar ha, hchar hb, hchar hc, hfirstDigit]
  rcases hsecondDigit with hb | hb | ⟨hb, hc⟩
  · rw [hb]
    exact ⟨_, (by decide : "fc".toList ∈ localPrefixes), ⟨_, rfl⟩⟩
  · rw [hb]
    exact ⟨_, (by decide : "fd".toList ∈ localPrefixes), ⟨_, rfl⟩⟩
  · rw [hb]
    refine ⟨['f', 'e', Nat.digitChar (hexDigitValue c)], ?_, ⟨[d], rfl⟩⟩
    generalize hexDigitValue c = digit at hc hcle
    interval_cases digit <;> decide

/-! ## The verdict -/

namespace Ipv6Literal

variable {literal : Ipv6Literal}

theorem text_of_before_cons {first : List Char} {rest : List (List Char)}
    (h : literal.before = first :: rest) :
    (∃ more, literal.text = first ++ ':' :: more) ∧
      literal.addressGroups.head? = some (parseHex first) := by
  cases rest with
  | nil =>
      obtain ⟨⟨more, htext⟩, groups, hgroups⟩ := text_of_before_singleton h
      rw [hgroups]
      exact ⟨⟨_, htext⟩, rfl⟩
  | cons second rest =>
      obtain ⟨⟨more, htext⟩, groups, hgroups⟩ := text_of_before_cons_cons h
      rw [hgroups]
      exact ⟨⟨_, htext⟩, rfl⟩

/-- A text that begins with two groups. -/
theorem before_of_prefix {first second : List Char} (hfirst : ':' ∉ first) (hne : first ≠ [])
    (hsecond : ':' ∉ second) (hne' : second ≠ [])
    (h : first ++ ':' :: (second ++ [':']) <+: literal.text) :
    ∃ rest, literal.before = first :: second :: rest := by
  obtain ⟨tail, htail⟩ := h
  have htext : literal.text = first ++ ':' :: (second ++ ':' :: tail) := by
    rw [← htail]
    simp
  have hcolon : ∀ {part : List Char}, part ∈ literal.before → ':' ∉ part :=
    fun hpart => not_mem_of_isGroup (literal.isGroup_of_mem_before hpart) (by decide)
  match hbefore : literal.before with
  | [] =>
      obtain ⟨⟨more, hmore⟩, -⟩ := text_of_before_nil hbefore
      obtain ⟨c, first, rfl⟩ := List.exists_cons_of_ne_nil hne
      rw [htext] at hmore
      obtain ⟨rfl, -⟩ := List.cons.inj hmore
      exact absurd List.mem_cons_self hfirst
  | [group] =>
      obtain ⟨⟨more, hmore⟩, -⟩ := text_of_before_singleton hbefore
      obtain ⟨-, hrest⟩ := eq_of_append_sep_eq hfirst (hcolon (hbefore ▸ List.mem_cons_self))
        (htext.symm.trans hmore)
      obtain ⟨c, second, rfl⟩ := List.exists_cons_of_ne_nil hne'
      obtain ⟨rfl, -⟩ := List.cons.inj hrest
      exact absurd List.mem_cons_self hsecond
  | group :: next :: rest =>
      obtain ⟨⟨more, hmore⟩, -⟩ := text_of_before_cons_cons hbefore
      obtain ⟨rfl, hrest⟩ := eq_of_append_sep_eq hfirst
        (hcolon (hbefore ▸ List.mem_cons_self)) (htext.symm.trans hmore)
      obtain ⟨rfl, -⟩ := eq_of_append_sep_eq hsecond (hcolon (by simp [hbefore])) hrest
      exact ⟨rest, rfl⟩

/-- The groups of a text that begins with two groups. -/
theorem groups_of_prefix {first second : List Char} (hfirst : ':' ∉ first) (hne : first ≠ [])
    (hsecond : ':' ∉ second) (hne' : second ≠ [])
    (h : first ++ ':' :: (second ++ [':']) <+: literal.text) :
    ∃ more, literal.addressGroups = parseHex first :: parseHex second :: more := by
  obtain ⟨rest, hbefore⟩ := before_of_prefix hfirst hne hsecond hne' h
  exact (text_of_before_cons_cons hbefore).2

/-- A documentation address is written with or without a leading zero. -/
theorem prefix_of_documentation {more : List Nat}
    (h : literal.addressGroups = 0x2001 :: 0xdb8 :: more) :
    "2001:db8:".toList.isPrefixOf literal.text = true ∨
      "2001:0db8:".toList.isPrefixOf literal.text = true := by
  have hgroup : ∀ {part : List Char}, part ∈ literal.before → isGroup part = true :=
    literal.isGroup_of_mem_before
  match hbefore : literal.before with
  | [] =>
      obtain ⟨-, hhead⟩ := text_of_before_nil hbefore
      rw [h] at hhead
      exact absurd (Option.some.inj hhead) (by decide)
  | [group] =>
      obtain ⟨-, rest, hrest⟩ := text_of_before_singleton hbefore
      rw [h, List.cons.injEq, List.cons.injEq] at hrest
      exact absurd hrest.2.1 (by decide)
  | group :: next :: rest =>
      obtain ⟨⟨tail, htext⟩, rest', hgroups⟩ := text_of_before_cons_cons hbefore
      rw [h, List.cons.injEq, List.cons.injEq] at hgroups
      obtain ⟨hfirst, hsecond, -⟩ := hgroups
      have hnext : isGroup next = true := hgroup (by simp [hbefore])
      have hgroupText : group = "2001".toList := by
        refine eq_of_parseHex_four (hgroup (hbefore ▸ List.mem_cons_self)) (by decide) rfl
          (by decide) (hfirst.symm.trans (by decide))
      have hlength : next.length = 3 ∨ next.length = 4 := by
        have hlarge := le_length_of_parseHex hnext (by omega : 16 ^ 2 ≤ parseHex next)
        have hle := (isGroup_iff.mp hnext).1.2
        omega
      rw [htext, hgroupText]
      rcases hlength with hlength | hlength
      · have hnextText : next = "db8".toList :=
          group_eq hnext (by decide) hlength (hsecond.symm.trans (by decide))
        rw [hnextText]
        exact .inl (by simp)
      · have hnextText : next = "0db8".toList :=
          group_eq hnext (by decide) hlength (hsecond.symm.trans (by decide))
        rw [hnextText]
        exact .inr (by simp)

theorem not_localPrefix_of_before_nil (hbefore : literal.before = []) :
    localPrefixes.any (·.isPrefixOf literal.text) ≠ true := by
  intro h
  obtain ⟨start, hstart, hfront⟩ := List.any_eq_true.mp h
  obtain ⟨⟨more, htext⟩, -⟩ := text_of_before_nil hbefore
  rw [htext] at hfront
  have hnil := @prefix_of_prefix_append start [] _ (not_mem_localPrefix hstart)
    (List.isPrefixOf_iff_prefix.mp hfront)
  rw [List.prefix_nil] at hnil
  subst hnil
  exact absurd hstart (by decide)

/-- The first group is what stands in front of the first colon. -/
theorem takeWhile_text {first : List Char} {rest : List (List Char)}
    (hbefore : literal.before = first :: rest) : literal.text.takeWhile (· ≠ ':') = first := by
  obtain ⟨⟨more, htext⟩, -⟩ := text_of_before_cons hbefore
  have hgroup := literal.isGroup_of_mem_before (hbefore ▸ List.mem_cons_self)
  have hcolon : ∀ c ∈ first, decide (c ≠ ':') = true := by
    intro c hc
    refine decide_eq_true fun hcolon => ?_
    exact not_mem_of_isGroup hgroup (by decide) (hcolon ▸ hc)
  rw [htext, List.takeWhile_append_of_pos hcolon, List.takeWhile_cons_of_neg (by simp),
    List.append_nil]

/-- A text that begins like a local address: the number of its first group. -/
theorem first_of_localPrefix (h : localPrefixes.any (·.isPrefixOf literal.text) = true) :
    ∃ group more, literal.addressGroups = group :: more ∧
      ((4 ≤ (literal.text.takeWhile (· ≠ ':')).length ∧
          (group / 512 = 126 ∨ group / 64 = 1018 ∨ group / 64 = 1019)) ∨
        (literal.text.takeWhile (· ≠ ':')).length < 4 ∧ 0xfc ≤ group ∧ group < 0x1000) := by
  cases hbefore : literal.before with
  | nil => exact absurd h (not_localPrefix_of_before_nil hbefore)
  | cons first rest =>
      obtain ⟨start, hstart, hfront⟩ := List.any_eq_true.mp h
      obtain ⟨⟨more, htext⟩, hhead⟩ := text_of_before_cons hbefore
      have hgroup := literal.isGroup_of_mem_before (hbefore ▸ List.mem_cons_self)
      obtain ⟨groups, hgroups⟩ := List.head?_eq_some_iff.mp hhead
      rw [htext] at hfront
      have hfirst := prefix_of_prefix_append (not_mem_localPrefix hstart)
        (List.isPrefixOf_iff_prefix.mp hfront)
      refine ⟨parseHex first, groups, hgroups, ?_⟩
      rw [takeWhile_text hbefore]
      rcases range_of_localPrefix hstart hgroup hfirst with ⟨hlength, hrange⟩ | hshort
      · exact .inl ⟨by omega, hrange⟩
      · exact .inr hshort

/-- A local address begins with one of the prefixes. -/
theorem localPrefix_of_groups {group : Nat} {more : List Nat}
    (h : literal.addressGroups = group :: more)
    (hlocal : group / 512 = 126 ∨ group / 64 = 1018 ∨ group / 64 = 1019) :
    localPrefixes.any (·.isPrefixOf literal.text) = true := by
  cases hbefore : literal.before with
  | nil =>
      obtain ⟨-, hhead⟩ := text_of_before_nil hbefore
      rw [h] at hhead
      have hzero : group = 0 := Option.some.inj hhead
      omega
  | cons first rest =>
      obtain ⟨⟨tail, htext⟩, hhead⟩ := text_of_before_cons hbefore
      rw [h] at hhead
      have hfirst : group = parseHex first := Option.some.inj hhead
      rw [hfirst] at hlocal
      have hgroup := literal.isGroup_of_mem_before (hbefore ▸ List.mem_cons_self)
      obtain ⟨start, hstart, hfront⟩ := localPrefix_of_range hgroup hlocal
      refine List.any_eq_true.mpr ⟨start, hstart, List.isPrefixOf_iff_prefix.mpr ?_⟩
      rw [htext]
      exact hfront.trans (List.prefix_append _ _)

theorem exists_groups (literal : Ipv6Literal) :
    ∃ g0 g1 g2 g3 g4 g5 g6 g7, literal.addressGroups = [g0, g1, g2, g3, g4, g5, g6, g7] ∧
      SixteenBits g0 g1 g2 g3 g4 g5 g6 g7 := by
  have hlength := literal.addressGroups_length
  have hlt : ∀ group ∈ literal.addressGroups, group < 65536 :=
    fun group => literal.addressGroups_lt
  generalize literal.addressGroups = groups at hlength hlt
  obtain ⟨g0, g1, g2, g3, hfront⟩ := exists_four (show (groups.take 4).length = 4 by simp [hlength])
  obtain ⟨g4, g5, g6, g7, hback⟩ := exists_four (show (groups.drop 4).length = 4 by simp [hlength])
  have hgroups : groups = [g0, g1, g2, g3, g4, g5, g6, g7] := by
    rw [← List.take_append_drop 4 groups, hfront, hback]
    rfl
  refine ⟨g0, g1, g2, g3, g4, g5, g6, g7, hgroups, ?_⟩
  subst hgroups
  simp only [List.forall_mem_cons] at hlt
  obtain ⟨h0, h1, h2, h3, h4, h5, h6, h7, -⟩ := hlt
  exact ⟨h0, h1, h2, h3, h4, h5, h6, h7⟩

section

variable {g0 g1 g2 g3 g4 g5 g6 g7 : Nat}

theorem hiddenMapping_iff (hgroups : literal.addressGroups = [g0, g1, g2, g3, g4, g5, g6, g7])
    (h : SixteenBits g0 g1 g2 g3 g4 g5 g6 g7) :
    HiddenMapping literal ↔
      (g0 = 0 ∧ g1 = 0 ∧ g2 = 0 ∧ g3 = 0 ∧ g4 = 0 ∧ g5 = 0xffff) ∧
        isPrivateOrReservedIpv4 (embedded g6 g7) = true ∧
        [':', ':'] <:+: literal.text ∧ "::ffff:".toList.isPrefixOf literal.text = false := by
  rw [HiddenMapping, address, hgroups, inBlock_96 h (by decide) (by decide), addressOf_mod h,
    isPrivateIpv4_iff h.2.2.2.2.2.2.2]

theorem documentation_of_start
    (hgroups : literal.addressGroups = [g0, g1, g2, g3, g4, g5, g6, g7])
    (hfront : "2001:db8:".toList.isPrefixOf literal.text = true ∨
      PaddedDocumentation literal.text) : g0 = 0x2001 ∧ g1 = 0xdb8 := by
  have hread : ∀ {second : List Char}, ':' ∉ second → second ≠ [] →
      "2001".toList ++ ':' :: (second ++ [':']) <+: literal.text →
      parseHex second = 0xdb8 → g0 = 0x2001 ∧ g1 = 0xdb8 := by
    intro second hsecond hne hstart hvalue
    obtain ⟨more, hmore⟩ := groups_of_prefix (by decide) (by decide) hsecond hne hstart
    rw [hgroups, List.cons.injEq, List.cons.injEq, hvalue] at hmore
    exact ⟨hmore.1.trans (by decide), hmore.2.1⟩
  rcases hfront with hfront | hfront
  · exact @hread "db8".toList (by decide) (by decide) (List.isPrefixOf_iff_prefix.mp hfront)
      (by decide)
  · exact @hread "0db8".toList (by decide) (by decide) (List.isPrefixOf_iff_prefix.mp hfront)
      (by decide)

/-- A text that begins like a local address is always blocked. -/
theorem verdict_of_localPrefix
    (hgroups : literal.addressGroups = [g0, g1, g2, g3, g4, g5, g6, g7])
    (h : SixteenBits g0 g1 g2 g3 g4 g5 g6 g7)
    (hlocal : localPrefixes.any (·.isPrefixOf literal.text) = true) :
    IsBlockedAddress literal.address ↔ ¬ShortLocalPrefix literal.text ∧
      ¬PaddedDocumentation literal.text ∧ ¬HiddenMapping literal := by
  obtain ⟨group, more, hmore, hcases⟩ := first_of_localPrefix hlocal
  obtain rfl : g0 = group := (List.cons.inj (hgroups.symm.trans hmore)).1
  have hpadded : ¬PaddedDocumentation literal.text := by
    intro hfront
    have hdocumentation := documentation_of_start hgroups (.inr hfront)
    omega
  have hhidden : ¬HiddenMapping literal := by
    rw [hiddenMapping_iff hgroups h]
    rintro ⟨hmapped, -⟩
    omega
  rw [address, hgroups, isBlockedAddress_iff h]
  rcases hcases with ⟨hlong, hrange⟩ | ⟨hshort, hrange⟩
  · refine iff_of_true ?_ ⟨?_, hpadded, hhidden⟩
    · rcases hrange with hrange | hrange | hrange
      · exact .inr (.inl hrange)
      · exact .inr (.inr (.inl hrange))
      · exact .inr (.inr (.inr (.inl hrange)))
    · rintro ⟨-, hshort⟩
      omega
  · refine iff_of_false ?_ fun hspelled => hspelled.1 ⟨hlocal, hshort⟩
    rintro (h | h | h | h | h | h | h | ⟨h, -⟩ | ⟨h, -⟩) <;> omega

/-- The texts that are blocked as they stand. -/
theorem verdict_of_text
    (h : literal.text = "::".toList ∨ literal.text = "::1".toList ∨
      "2001:db8:".toList.isPrefixOf literal.text = true) :
    IsBlockedAddress literal.address ∧ ¬PaddedDocumentation literal.text ∧
      ¬HiddenMapping literal := by
  have hparse := literal.parseIpv6Groups_text
  rcases h with htext | htext | hfront
  · have hgroups : literal.addressGroups = [0, 0, 0, 0, 0, 0, 0, 0] := by
      rw [htext] at hparse
      exact (Option.some.inj ((by decide +kernel : parseIpv6Groups "::".toList =
        some [0, 0, 0, 0, 0, 0, 0, 0]).symm.trans hparse)).symm
    have hbits : SixteenBits 0 0 0 0 0 0 0 0 := by
      unfold SixteenBits
      decide
    refine ⟨?_, ?_, ?_⟩
    · rw [address, hgroups]
      exact .inl rfl
    · rw [PaddedDocumentation, htext]
      decide
    · rw [hiddenMapping_iff hgroups hbits]
      simp
  · have hgroups : literal.addressGroups = [0, 0, 0, 0, 0, 0, 0, 1] := by
      rw [htext] at hparse
      exact (Option.some.inj ((by decide +kernel : parseIpv6Groups "::1".toList =
        some [0, 0, 0, 0, 0, 0, 0, 1]).symm.trans hparse)).symm
    have hbits : SixteenBits 0 0 0 0 0 0 0 1 := by
      unfold SixteenBits
      decide
    refine ⟨?_, ?_, ?_⟩
    · rw [address, hgroups]
      exact .inr (.inl rfl)
    · rw [PaddedDocumentation, htext]
      decide
    · rw [hiddenMapping_iff hgroups hbits]
      simp
  · obtain ⟨g0, g1, g2, g3, g4, g5, g6, g7, hgroups, hbits⟩ := literal.exists_groups
    have hdocumentation := documentation_of_start hgroups (.inl hfront)
    refine ⟨?_, ?_, ?_⟩
    · rw [address, hgroups, isBlockedAddress_iff hbits]
      exact .inr (.inr (.inr (.inr (.inr (.inl hdocumentation)))))
    · intro hpadded
      obtain ⟨tail, htail⟩ := List.isPrefixOf_iff_prefix.mp hfront
      obtain ⟨tail', htail'⟩ := List.isPrefixOf_iff_prefix.mp hpadded
      have hclash := htail.trans htail'.symm
      simp at hclash
    · rw [hiddenMapping_iff hgroups hbits]
      rintro ⟨hmapped, -⟩
      omega

/-- A text that is read as a mapped address. -/
theorem verdict_of_mapped {ip : List Char}
    (hip : extractIpv4MappedAddress literal.text = some ip) :
    (isPrivateOrReservedIpv4 ip = true ↔ IsBlockedAddress literal.address) ∧
      ¬PaddedDocumentation literal.text ∧ ¬HiddenMapping literal := by
  obtain ⟨high, low, hgroups, hprivate, hspelling⟩ :=
    extract_sound hip literal.parseIpv6Groups_text
  have hlt : ∀ group ∈ literal.addressGroups, group < 65536 :=
    fun group => literal.addressGroups_lt
  have h : SixteenBits 0 0 0 0 0 0xffff high low := by
    rw [hgroups] at hlt
    simp only [List.forall_mem_cons] at hlt
    unfold SixteenBits
    omega
  refine ⟨?_, ?_, ?_⟩
  · rw [address, hgroups, isBlockedAddress_iff h, hprivate]
    simp
  · intro hfront
    have hdocumentation := documentation_of_start hgroups (.inr hfront)
    omega
  · rw [hiddenMapping_iff hgroups h]
    rintro ⟨-, -, hpair, hfront⟩
    rcases hspelling with hfree | hstart
    · exact hfree hpair
    · rw [hstart] at hfront
      cases hfront

/-- A text that is told by its groups. -/
theorem verdict_of_groups
    (hgroups : literal.addressGroups = [g0, g1, g2, g3, g4, g5, g6, g7])
    (h : SixteenBits g0 g1 g2 g3 g4 g5 g6 g7)
    (hlocal : ¬localPrefixes.any (·.isPrefixOf literal.text) = true)
    (hdocumentation : ¬"2001:db8:".toList.isPrefixOf literal.text = true)
    (hmapped : extractIpv4MappedAddress literal.text = none) :
    (isBlockedGroups literal.addressGroups = true ↔ IsBlockedAddress literal.address) ↔
      ¬PaddedDocumentation literal.text ∧ ¬HiddenMapping literal := by
  have hlocalGroups : g0 / 512 ≠ 126 ∧ g0 / 64 ≠ 1018 ∧ g0 / 64 ≠ 1019 := by
    refine ⟨fun hrange => ?_, fun hrange => ?_, fun hrange => ?_⟩
    · exact hlocal (localPrefix_of_groups hgroups (.inl hrange))
    · exact hlocal (localPrefix_of_groups hgroups (.inr (.inl hrange)))
    · exact hlocal (localPrefix_of_groups hgroups (.inr (.inr hrange)))
  rw [hiddenMapping_iff hgroups h, address, hgroups]
  by_cases hpadded : g0 = 0x2001 ∧ g1 = 0xdb8
  · -- The code does not look for documentation addresses among the groups.
    obtain ⟨rfl, rfl⟩ := hpadded
    have hfront : PaddedDocumentation literal.text :=
      (prefix_of_documentation hgroups).resolve_left hdocumentation
    refine iff_of_false ?_ fun hspelled => hspelled.1 hfront
    rw [isBlockedGroups_iff h, isBlockedAddress_iff h]
    simp
  have hnotPadded : ¬PaddedDocumentation literal.text :=
    fun hfront => hpadded (documentation_of_start hgroups (.inr hfront))
  by_cases hmappedGroups : g0 = 0 ∧ g1 = 0 ∧ g2 = 0 ∧ g3 = 0 ∧ g4 = 0 ∧ g5 = 0xffff
  · -- Nor for mapped addresses that were not folded.
    obtain ⟨rfl, rfl, rfl, rfl, rfl, rfl⟩ := hmappedGroups
    have hspelling : ¬(¬[':', ':'] <:+: literal.text ∨
        "::ffff:".toList.isPrefixOf literal.text = true) := by
      rw [← extract_isSome_iff hgroups, hmapped]
      simp
    rw [not_or, not_not, Bool.not_eq_true] at hspelling
    rw [isBlockedGroups_iff h, isBlockedAddress_iff h, hspelling.2]
    simp [hnotPadded, hspelling.1]
  · refine iff_of_true ?_ ⟨hnotPadded, fun hhidden => hmappedGroups hhidden.1⟩
    exact isBlockedGroups_iff_address h hlocalGroups hpadded hmappedGroups

end

end Ipv6Literal

/-- The verdict on a literal is the verdict on its address if and only if its text is
not one of the three kinds of spellings. -/
theorem isBlockedLower_iff_address (literal : Ipv6Literal) :
    (isBlockedLower literal.text = true ↔ IsBlockedAddress literal.address) ↔
      ¬ShortLocalPrefix literal.text ∧ ¬PaddedDocumentation literal.text ∧
        ¬HiddenMapping literal := by
  obtain ⟨g0, g1, g2, g3, g4, g5, g6, g7, hgroups, h⟩ := literal.exists_groups
  rw [isBlockedLower]
  by_cases hlocal : localPrefixes.any (·.isPrefixOf literal.text) = true
  · simp only [hlocal, Bool.or_true, Bool.true_or, if_true, true_iff]
    exact Ipv6Literal.verdict_of_localPrefix hgroups h hlocal
  have hshort : ¬ShortLocalPrefix literal.text := fun hshort => hlocal hshort.1
  by_cases htext : literal.text = "::".toList ∨ literal.text = "::1".toList ∨
      "2001:db8:".toList.isPrefixOf literal.text = true
  · obtain ⟨hblocked, hpadded, hhidden⟩ := Ipv6Literal.verdict_of_text htext
    refine iff_of_true ?_ ⟨hshort, hpadded, hhidden⟩
    rw [if_pos]
    · exact iff_of_true rfl hblocked
    · simp only [Bool.or_eq_true, decide_eq_true_eq]
      rcases htext with htext | htext | htext
      · exact .inl (.inl (.inl htext))
      · exact .inl (.inl (.inr htext))
      · exact .inr htext
  have hread : ¬(decide (literal.text = "::".toList) || decide (literal.text = "::1".toList) ||
      localPrefixes.any (·.isPrefixOf literal.text) ||
      "2001:db8:".toList.isPrefixOf literal.text) = true := by
    simp only [Bool.or_eq_true, decide_eq_true_eq]
    rintro (((h | h) | h) | h)
    · exact htext (.inl h)
    · exact htext (.inr (.inl h))
    · exact hlocal h
    · exact htext (.inr (.inr h))
  rw [if_neg hread]
  cases hmapped : extractIpv4MappedAddress literal.text with
  | some ip =>
      obtain ⟨hverdict, hpadded, hhidden⟩ := Ipv6Literal.verdict_of_mapped hmapped
      exact iff_of_true hverdict ⟨hshort, hpadded, hhidden⟩
  | none =>
      simp only [literal.parseIpv6Groups_text, hshort, not_false_eq_true, true_and]
      refine Ipv6Literal.verdict_of_groups hgroups h hlocal ?_ hmapped
      exact fun hfront => htext (.inr (.inr hfront))

/-- For every text that `isIP` takes for an IPv6 address without a zone: the verdict is
that on its address if and only if the text is not one of the three kinds of
spellings. -/
theorem isBlockedIpv6_iff_address {toLowerCase : String → String}
    (hlower : LowersAscii toLowerCase) {host : String} (hip : isIP host.toList = 6)
    (hzone : '%' ∉ host.toList) :
    (∃ literal : Ipv6Literal, literal.text = host.toList.map Char.toLower) ∧
      ∀ literal : Ipv6Literal, literal.text = host.toList.map Char.toLower →
        ((isBlockedIpv6 toLowerCase host = true ↔ IsBlockedAddress literal.address) ↔
          ¬ShortLocalPrefix literal.text ∧ ¬PaddedDocumentation literal.text ∧
            ¬HiddenMapping literal) := by
  refine ⟨exists_literal_of_isIP hip hzone, fun literal hliteral => ?_⟩
  rw [isBlockedIpv6, hlower host (ascii_of_literal hliteral), ← hliteral]
  exact isBlockedLower_iff_address literal

theorem linkLocal_verdict_iff :
    (∃ literal : Ipv6Literal, literal.text = "FE80::1".toList.map Char.toLower) ∧
      ∀ literal : Ipv6Literal, literal.text = "FE80::1".toList.map Char.toLower →
        ((isBlockedIpv6 lowerAscii "FE80::1" = true ↔ IsBlockedAddress literal.address) ↔
          ¬ShortLocalPrefix literal.text ∧ ¬PaddedDocumentation literal.text ∧
            ¬HiddenMapping literal) :=
  isBlockedIpv6_iff_address lowersAscii_lowerAscii (by decide +kernel) (by decide)

theorem isGroup_hidden :
    ∀ group ∈ ["0".toList] ++ (some ["ffff".toList]).getD [], isGroup group = true := by
  decide

theorem octets_hidden : ∀ numbers ∈ some ["169".toList, "254".toList, "169".toList,
    "254".toList], numbers.length = 4 ∧
      ∀ octet ∈ numbers, isShortNumber octet = true ∧ number octet ≤ 255 := by
  intro numbers hnumbers
  rw [← Option.some.inj hnumbers]
  decide

theorem size_hidden : MakesAddress ["0".toList] (some ["ffff".toList]) 1 := by
  unfold MakesAddress
  decide

/-- `0::ffff:169.254.169.254` -/
def hiddenMetadata : Ipv6Literal where
  before := ["0".toList]
  after := some ["ffff".toList]
  quad := some ["169".toList, "254".toList, "169".toList, "254".toList]
  groups := isGroup_hidden
  octets := octets_hidden
  size := size_hidden

/-- The metadata address of cloud hosts is not blocked when its zeros are compressed
behind a first zero. -/
theorem hiddenMetadata_not_blocked :
    ¬(isBlockedIpv6 lowerAscii "0::ffff:169.254.169.254" = true ↔
      IsBlockedAddress hiddenMetadata.address) := by
  have hallowed : isBlockedIpv6 lowerAscii "0::ffff:169.254.169.254" = false := by
    decide +kernel
  have haddress : hiddenMetadata.address = addressOf [0, 0, 0, 0, 0, 0xffff, 0xa9fe, 0xa9fe] := by
    decide +kernel
  have hbits : SixteenBits 0 0 0 0 0 0xffff 0xa9fe 0xa9fe := by
    unfold SixteenBits
    decide
  have hblocked : IsBlockedAddress hiddenMetadata.address := by
    rw [haddress, isBlockedAddress_iff hbits]
    refine .inr (.inr (.inr (.inr (.inr (.inr (.inr (.inl ⟨.inl ?_, ?_⟩)))))))
    · exact ⟨rfl, rfl, rfl, rfl, rfl, .inl rfl⟩
    · decide +kernel
  rw [hallowed]
  intro h
  exact absurd (h.mpr hblocked) (by decide)

end GoatCitadel.Sandbox
