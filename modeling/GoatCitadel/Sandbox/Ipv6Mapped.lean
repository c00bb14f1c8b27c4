import GoatCitadel.Sandbox.Ipv6Guard

/-!
# Reading IPv4-mapped addresses

`extractIpv4MappedAddress` folds the zeros in front of `ffff` and looks for an IPv4
address behind it.  What it returns is the IPv4 address of a mapped address, in
other digits at most; but it only looks at texts in which the zeros are written out
or stand for `::` at the start.
-/

namespace GoatCitadel.Sandbox

open GoatCitadel.Support

/-! ## Folding zeros -/

/-- A group of zeros. -/
def IsZeroGroup (part : List Char) : Prop :=
  (1 ≤ part.length ∧ part.length ≤ 4) ∧ ∀ c ∈ part, c = '0'

variable {parts zeros : List (List Char)}

theorem IsZeroGroup.isGroup {part : List Char} (h : IsZeroGroup part) :
    isGroup part = true ∧ parseHex part = 0 := by
  obtain ⟨hlength, hzeros⟩ := h
  constructor
  · refine isGroup_iff.mpr ⟨hlength, fun c hc => ?_⟩
    rw [hzeros c hc]
    rfl
  · have hpart : part = List.replicate part.length '0' := List.eq_replicate_iff.mpr ⟨rfl, hzeros⟩
    rw [hpart]
    generalize part.length = n
    induction n with
    | zero => rfl
    | succ n ih =>
        rw [List.replicate_succ]
        exact ih

theorem stripZeroGroups_append {part rest : List Char} (h : IsZeroGroup part) (k : Nat) :
    stripZeroGroups (k + 1) (part ++ ':' :: rest) = stripZeroGroups k rest := by
  have hzeros : ∀ c ∈ part, decide (c = '0') = true := fun c hc => decide_eq_true (h.2 c hc)
  have htake : (part ++ ':' :: rest).takeWhile (· = '0') = part := by
    rw [List.takeWhile_append_of_pos hzeros, List.takeWhile_cons_of_neg (by simp)]
    simp
  have hdrop : (part ++ ':' :: rest).dropWhile (· = '0') = ':' :: rest := by
    rw [List.dropWhile_append_of_pos hzeros, List.dropWhile_cons_of_neg (by simp)]
  simp only [stripZeroGroups, htake, hdrop]
  rw [if_pos (by simpa using h.1)]

/-- Groups of zeros in front are stripped. -/
theorem stripZeroGroups_intercalate (hzeros : ∀ part ∈ zeros, IsZeroGroup part)
    (hparts : parts ≠ []) :
    stripZeroGroups zeros.length ([':'].intercalate (zeros ++ parts)) =
      some ([':'].intercalate parts) := by
  induction zeros with
  | nil => rfl
  | cons zero zeros ih =>
      obtain ⟨hzero, hzeros⟩ := List.forall_mem_cons.mp hzeros
      rw [List.cons_append, intercalate_cons (by simp [hparts]), List.length_cons,
        stripZeroGroups_append hzero, ih hzeros]

/-- Only groups of zeros are stripped. -/
theorem stripZeroGroups_eq_some {k : Nat} {text rest : List Char} (hparts : parts ≠ [])
    (hrest : rest = [':'].intercalate parts) (h : stripZeroGroups k text = some rest) :
    ∃ zeros : List (List Char), zeros.length = k ∧ (∀ part ∈ zeros, IsZeroGroup part) ∧
      text = [':'].intercalate (zeros ++ parts) := by
  induction k generalizing text with
  | zero =>
      rw [stripZeroGroups, Option.some.injEq] at h
      exact ⟨[], rfl, by simp, by rw [h, hrest]; rfl⟩
  | succ k ih =>
      simp only [stripZeroGroups] at h
      split at h
      · next next hdrop =>
          rw [Option.ite_none_right_eq_some, Bool.and_eq_true, decide_eq_true_eq,
            decide_eq_true_eq] at h
          obtain ⟨hlength, h⟩ := h
          obtain ⟨zeros, hcount, hzeros, htext⟩ := ih h
          refine ⟨text.takeWhile (· = '0') :: zeros, by simp [hcount], ?_, ?_⟩
          · refine List.forall_mem_cons.mpr ⟨⟨hlength, fun c hc => ?_⟩, hzeros⟩
            simpa using List.mem_takeWhile_imp hc
          · rw [List.cons_append, intercalate_cons (by simp [hparts]), ← htext, ← hdrop,
              List.takeWhile_append_dropWhile]
      · cases h

theorem foldZeroGroups_of_colon {counts : List Nat} {more : List Char} (h : 0 ∉ counts) :
    foldZeroGroups counts (':' :: more) = ':' :: more := by
  have hnone : (counts.findSome? fun k =>
      (stripZeroGroups k (':' :: more)).filter ("ffff:".toList.isPrefixOf ·)) = none := by
    rw [List.findSome?_eq_none_iff]
    intro k hk
    cases k with
    | zero => exact absurd hk h
    | succ k => simp [stripZeroGroups]
  rw [foldZeroGroups, hnone]

theorem isPrivateOrReservedIpv4_congr {host host' : List Char}
    (h : (host.splitOn '.').map number = (host'.splitOn '.').map number) :
    isPrivateOrReservedIpv4 host = isPrivateOrReservedIpv4 host' := by
  unfold isPrivateOrReservedIpv4
  rw [h]

/-- The octets of two groups are read back from their text. -/
theorem numbers_embedded {a b c d : Nat} (ha : a ≤ 255) (hb : b ≤ 255) (hc : c ≤ 255)
    (hd : d ≤ 255) :
    ((embedded (a * 256 + b) (c * 256 + d)).splitOn '.').map number = [a, b, c, d] := by
  have hhigh : ∀ {x y : Nat}, x ≤ 255 → y ≤ 255 → (x * 256 + y) >>> 8 &&& 0xff = x := by
    intro x y hx hy
    have hand : (x * 256 + y) >>> 8 &&& 0xff = (x * 256 + y) >>> 8 % 2 ^ 8 :=
      Nat.and_two_pow_sub_one_eq_mod _ 8
    rw [hand, Nat.shiftRight_eq_div_pow]
    omega
  have hlow : ∀ {x y : Nat}, y ≤ 255 → (x * 256 + y) &&& 0xff = y := by
    intro x y hy
    have hand : (x * 256 + y) &&& 0xff = (x * 256 + y) % 2 ^ 8 :=
      Nat.and_two_pow_sub_one_eq_mod _ 8
    rw [hand]
    omega
  have hdots : ∀ part ∈ [a, b, c, d].map (Nat.toDigits 10), '.' ∉ part := by
    intro part hpart hdot
    obtain ⟨octet, -, rfl⟩ := List.mem_map.mp hpart
    exact absurd (Nat.isDigit_of_mem_toDigits (by decide) (by decide) hdot) (by decide)
  rw [embedded, hhigh ha hb, hlow hb, hhigh hc hd, hlow hd,
    List.splitOn_intercalate '.' hdots (by simp)]
  simp [number]

theorem readMappedTail_eq_some {tail ip : List Char} (h : readMappedTail tail = some ip) :
    (∃ a b c d, (∀ part ∈ [a, b, c, d], isShortNumber part = true) ∧
        tail = ['.'].intercalate [a, b, c, d] ∧ ip = tail) ∨
      ∃ high low, isGroup high = true ∧ isGroup low = true ∧
        tail = [':'].intercalate [high, low] ∧
        ip = embedded (parseHex high) (parseHex low) := by
  simp only [readMappedTail] at h
  split at h
  · next hnumbers =>
      rw [Bool.and_eq_true, decide_eq_true_eq, List.all_eq_true] at hnumbers
      obtain ⟨a, b, c, d, hsplit⟩ := exists_four hnumbers.1
      refine .inl ⟨a, b, c, d, ?_, ?_, (Option.some.inj h).symm⟩
      · rw [← hsplit]
        exact hnumbers.2
      · rw [← hsplit, List.intercalate_splitOn]
  · split at h
    · next high low hsplit =>
        rw [Option.ite_none_right_eq_some, Bool.and_eq_true, Option.some.injEq] at h
        refine .inr ⟨high, low, h.1.1, h.1.2, ?_, h.2.symm⟩
        rw [← hsplit, List.intercalate_splitOn]
    · cases h

/-- Where a text is read as mapped, it begins with `::ffff:` or with groups of
zeros and `ffff`. -/
theorem extract_eq_some {text ip : List Char} (h : extractIpv4MappedAddress text = some ip) :
    ∃ tail, readMappedTail tail = some ip ∧
      (text = ':' :: ':' :: [':'].intercalate ["ffff".toList, tail] ∨
        ∃ zeros : List (List Char), (∀ part ∈ zeros, IsZeroGroup part) ∧
          text = [':'].intercalate (zeros ++ ["ffff".toList, tail])) := by
  have hfold : ∀ (counts : List Nat) (text : List Char),
      foldZeroGroups counts text = text ∨ ∃ tail, foldZeroGroups counts text =
        ':' :: ':' :: [':'].intercalate ["ffff".toList, tail] ∧
        ∃ zeros : List (List Char), (∀ part ∈ zeros, IsZeroGroup part) ∧
          text = [':'].intercalate (zeros ++ ["ffff".toList, tail]) := by
    intro counts text
    cases hfound : counts.findSome? fun k =>
        (stripZeroGroups k text).filter ("ffff:".toList.isPrefixOf ·) with
    | none => exact .inl (by rw [foldZeroGroups, hfound])
    | some rest =>
        obtain ⟨k, -, hk⟩ := List.exists_of_findSome?_eq_some hfound
        obtain ⟨hstrip, hfront⟩ := Option.filter_eq_some_iff.mp hk
        obtain ⟨tail, htail⟩ := List.isPrefixOf_iff_prefix.mp hfront
        have hrest : rest = [':'].intercalate ["ffff".toList, tail] := by
          rw [← htail]
          simp [List.intercalate_cons_cons]
        obtain ⟨zeros, -, hzeros, htext⟩ :=
          stripZeroGroups_eq_some (List.cons_ne_nil _ _) hrest hstrip
        refine .inr ⟨tail, ?_, zeros, hzeros, htext⟩
        rw [foldZeroGroups, hfound, ← hrest]
        rfl
  simp only [extractIpv4MappedAddress, Option.ite_none_right_eq_some] at h
  obtain ⟨hfront, hread⟩ := h
  have hcolon : ∀ more, foldZeroGroups [1] (':' :: more) = ':' :: more :=
    fun more => foldZeroGroups_of_colon (by decide)
  have hdrop : ∀ tail : List Char,
      (':' :: ':' :: [':'].intercalate ["ffff".toList, tail]).drop 7 = tail := by
    intro tail
    simp [List.intercalate_cons_cons]
  rcases hfold [5, 4, 3, 2] text with hinner | ⟨tail, hinner, hzeros⟩
  · rw [hinner] at hfront hread
    rcases hfold [1] text with houter | ⟨tail, houter, hzeros⟩
    · rw [houter] at hfront hread
      obtain ⟨tail, htail⟩ := List.isPrefixOf_iff_prefix.mp hfront
      have htext : text = ':' :: ':' :: [':'].intercalate ["ffff".toList, tail] := by
        rw [← htail]
        simp [List.intercalate_cons_cons]
      rw [htext, hdrop] at hread
      exact ⟨tail, hread, .inl htext⟩
    · rw [houter, hdrop] at hread
      exact ⟨tail, hread, .inr hzeros⟩
  · rw [hinner, hcolon, hdrop] at hread
    exact ⟨tail, hread, .inr hzeros⟩

theorem isGroup_ffff : isGroup "ffff".toList = true := by decide

/-- Groups of zeros, `ffff` and two more groups are an address when there are five
of the first. -/
theorem readGroups_zeros {high low : List Char} {groups : List Nat}
    (hzeros : ∀ part ∈ zeros, IsZeroGroup part) (hhigh : isGroup high = true)
    (hlow : isGroup low = true)
    (h : readGroups ([':'].intercalate (zeros ++ ["ffff".toList, high, low])) = some groups) :
    groups = [0, 0, 0, 0, 0, 0xffff, parseHex high, parseHex low] := by
  have hparts : ∀ part ∈ zeros ++ ["ffff".toList, high, low], isGroup part = true := by
    intro part hpart
    rcases List.mem_append.mp hpart with hpart | hpart
    · exact (hzeros part hpart).isGroup.1
    · simp only [List.mem_cons, List.not_mem_nil, or_false] at hpart
      rcases hpart with rfl | rfl | rfl
      · exact isGroup_ffff
      · exact hhigh
      · exact hlow
  rw [readGroups_whole hparts, Option.ite_none_right_eq_some, Option.some.injEq] at h
  obtain ⟨hlength, rfl⟩ := h
  have hfive : zeros.length = 5 := by
    rw [List.length_append] at hlength
    simpa using hlength
  have hvalues : zeros.map parseHex = List.replicate 5 0 := by
    refine List.eq_replicate_iff.mpr ⟨by rw [List.length_map, hfive], fun value hvalue => ?_⟩
    obtain ⟨part, hpart, rfl⟩ := List.mem_map.mp hvalue
    exact (hzeros part hpart).isGroup.2
  rw [List.map_append, hvalues]
  rfl

theorem readGroups_compressed {high low : List Char} (hhigh : isGroup high = true)
    (hlow : isGroup low = true) :
    readGroups (':' :: ':' :: [':'].intercalate ["ffff".toList, high, low]) =
      some [0, 0, 0, 0, 0, 0xffff, parseHex high, parseHex low] := by
  have hparts : ∀ part ∈ ["ffff".toList, high, low], isGroup part = true := by
    simp only [List.forall_mem_cons]
    exact ⟨isGroup_ffff, hhigh, hlow, by simp⟩
  exact @readGroups_pair [] _ (by simp) hparts

theorem intercalate_append_intercalate {front back : List (List Char)} (h : back ≠ []) :
    [':'].intercalate (front ++ [[':'].intercalate back]) = [':'].intercalate (front ++ back) := by
  rcases eq_or_ne front [] with rfl | hfront
  · simp
  · rw [intercalate_append hfront (by simp), intercalate_append hfront h,
      List.intercalate_singleton]

theorem mem_intercalate_groups (h : ∀ part ∈ parts, isGroup part = true) :
    ∀ c ∈ [':'].intercalate parts, isHexDigit c = true ∨ c = ':' := by
  intro c hc
  rcases mem_intercalate hc with rfl | ⟨part, hpart, hc⟩
  · exact .inr rfl
  · exact .inl ((isGroup_iff.mp (h part hpart)).2 c hc)

theorem isGroup_zeros_ffff (hzeros : ∀ part ∈ zeros, IsZeroGroup part) :
    ∀ part ∈ zeros ++ ["ffff".toList], isGroup part = true := by
  intro part hpart
  rcases List.mem_append.mp hpart with hpart | hpart
  · exact (hzeros part hpart).isGroup.1
  · rw [List.mem_singleton.mp hpart]
    exact isGroup_ffff

/-- A dotted IPv4 address after `ffff`. -/
theorem extract_sound_dotted {text : List Char} {a b c d : List Char} {groups : List Nat}
    (hnumbers : ∀ part ∈ [a, b, c, d], isShortNumber part = true)
    (htext : text = ':' :: ':' ::
        [':'].intercalate ["ffff".toList, ['.'].intercalate [a, b, c, d]] ∨
      ∃ zeros : List (List Char), (∀ part ∈ zeros, IsZeroGroup part) ∧
        text = [':'].intercalate
          (zeros ++ ["ffff".toList, ['.'].intercalate [a, b, c, d]]))
    (hgroups : parseIpv6Groups text = some groups) :
    ∃ high low, groups = [0, 0, 0, 0, 0, 0xffff, high, low] ∧
      isPrivateOrReservedIpv4 (['.'].intercalate [a, b, c, d]) =
        isPrivateOrReservedIpv4 (embedded high low) ∧
      (¬[':', ':'] <:+: text ∨ "::ffff:".toList.isPrefixOf text = true) := by
  refine ⟨number a * 256 + number b, number c * 256 + number d, ?_⟩
  have hprivate : number a ≤ 255 ∧ number b ≤ 255 ∧ number c ≤ 255 ∧ number d ≤ 255 →
      isPrivateOrReservedIpv4 (['.'].intercalate [a, b, c, d]) =
        isPrivateOrReservedIpv4
          (embedded (number a * 256 + number b) (number c * 256 + number d)) := by
    rintro ⟨ha, hb, hc, hd⟩
    refine isPrivateOrReservedIpv4_congr ?_
    rw [splitOn_numbers rfl hnumbers, numbers_embedded ha hb hc hd]
    rfl
  have hvalue : ∀ x y : Nat, parseHex (Nat.toDigits 16 (x * 256 + y)) = x * 256 + y :=
    fun x y => (parseHex_toDigits _).2
  have hgroup : ∀ {x y : Nat}, x ≤ 255 → y ≤ 255 →
      isGroup (Nat.toDigits 16 (x * 256 + y)) = true :=
    fun hx hy => isGroup_toDigits (by omega)
  rcases htext with rfl | ⟨zeros, hzeros, rfl⟩
  · have hfront : ∀ x ∈ "::ffff".toList, isHexDigit x = true ∨ x = ':' := by
      simp [isHexDigit]
    have hcut : ':' :: ':' ::
        [':'].intercalate ["ffff".toList, ['.'].intercalate [a, b, c, d]] =
        "::ffff".toList ++ ':' :: ['.'].intercalate [a, b, c, d] := by
      rw [intercalate_cons (List.cons_ne_nil _ _), List.intercalate_singleton]
      rfl
    rw [hcut] at hgroups ⊢
    obtain ⟨hsmall, hread⟩ := parseIpv6Groups_dotted hfront hnumbers hgroups
    refine ⟨?_, hprivate hsmall, .inr (by simp)⟩
    have hcompressed := readGroups_compressed (hgroup hsmall.1 hsmall.2.1)
      (hgroup hsmall.2.2.1 hsmall.2.2.2)
    rw [intercalate_cons (List.cons_ne_nil _ _), hvalue, hvalue] at hcompressed
    exact Option.some.inj (hread.symm.trans hcompressed)
  · have happend : zeros ++ ["ffff".toList, ['.'].intercalate [a, b, c, d]] =
        (zeros ++ ["ffff".toList]) ++ [['.'].intercalate [a, b, c, d]] := by simp
    have hfree : ∀ part ∈ (zeros ++ ["ffff".toList]) ++ [['.'].intercalate [a, b, c, d]],
        ':' ∉ part ∧ part ≠ [] := by
      intro part hpart
      rcases List.mem_append.mp hpart with hpart | hpart
      · exact separated_of_isGroup (isGroup_zeros_ffff hzeros) part hpart
      · rw [List.mem_singleton.mp hpart]
        constructor
        · intro hcolon
          rcases mem_intercalate hcolon with h | ⟨octet, hoctet, h⟩
          · exact absurd h (by decide)
          · have hdigit := (isShortNumber_iff.mp (hnumbers octet hoctet)).2 ':' h
            exact absurd hdigit (by decide)
        · simp [List.intercalate_cons_cons]
    rw [happend] at hgroups ⊢
    refine and_assoc.mp ⟨?_, .inl (not_pair_infix_intercalate hfree)⟩
    rw [intercalate_append (by simp) (by simp), List.intercalate_singleton] at hgroups
    obtain ⟨hsmall, hread⟩ := parseIpv6Groups_dotted
      (mem_intercalate_groups (isGroup_zeros_ffff hzeros)) hnumbers hgroups
    refine ⟨?_, hprivate hsmall⟩
    rw [← intercalate_append (by simp) (by simp), List.append_assoc] at hread
    have hzeroGroups := readGroups_zeros hzeros (hgroup hsmall.1 hsmall.2.1)
      (hgroup hsmall.2.2.1 hsmall.2.2.2) hread
    rw [hvalue, hvalue] at hzeroGroups
    exact hzeroGroups

/-- What is read as mapped is the IPv4 address of a mapped address, and the text
spells its zeros in front of `ffff` in one of the expected ways. -/
theorem extract_sound {text ip : List Char} {groups : List Nat}
    (hip : extractIpv4MappedAddress text = some ip)
    (hgroups : parseIpv6Groups text = some groups) :
    ∃ high low, groups = [0, 0, 0, 0, 0, 0xffff, high, low] ∧
      isPrivateOrReservedIpv4 ip = isPrivateOrReservedIpv4 (embedded high low) ∧
      (¬[':', ':'] <:+: text ∨ "::ffff:".toList.isPrefixOf text = true) := by
  obtain ⟨tail, htail, htext⟩ := extract_eq_some hip
  rcases readMappedTail_eq_some htail with
    ⟨a, b, c, d, hnumbers, rfl, rfl⟩ | ⟨high, low, hhigh, hlow, rfl, rfl⟩
  · exact extract_sound_dotted hnumbers htext hgroups
  refine ⟨parseHex high, parseHex low, ?_⟩
  have hparts : ∀ part ∈ ["ffff".toList, high, low], isGroup part = true := by
    simp only [List.forall_mem_cons]
    exact ⟨isGroup_ffff, hhigh, hlow, by simp⟩
  rcases htext with rfl | ⟨zeros, hzeros, rfl⟩
  · have hcut : [':'].intercalate ["ffff".toList, [':'].intercalate [high, low]] =
        [':'].intercalate ["ffff".toList, high, low] :=
      @intercalate_append_intercalate ["ffff".toList] [high, low] (by simp)
    rw [hcut] at hgroups ⊢
    have hplain : ∀ c ∈ ':' :: ':' :: [':'].intercalate ["ffff".toList, high, low],
        isHexDigit c = true ∨ c = ':' := by
      intro c hc
      rcases List.mem_cons.mp hc with rfl | hc
      · exact .inr rfl
      rcases List.mem_cons.mp hc with rfl | hc
      · exact .inr rfl
      · exact mem_intercalate_groups hparts c hc
    rw [parseIpv6Groups_plain hplain, readGroups_compressed hhigh hlow] at hgroups
    refine ⟨(Option.some.inj hgroups).symm, rfl, .inr ?_⟩
    rw [intercalate_cons (List.cons_ne_nil _ _)]
    simp
  · have hcut : zeros ++ ["ffff".toList, [':'].intercalate [high, low]] =
        (zeros ++ ["ffff".toList]) ++ [[':'].intercalate [high, low]] := by simp
    have hgroup : ∀ part ∈ zeros ++ ["ffff".toList, high, low], isGroup part = true := by
      intro part hpart
      rcases List.mem_append.mp hpart with hpart | hpart
      · exact (hzeros part hpart).isGroup.1
      · exact hparts part hpart
    rw [hcut, intercalate_append_intercalate (by simp), List.append_assoc] at hgroups ⊢
    have hread : readGroups ([':'].intercalate (zeros ++ ["ffff".toList, high, low])) =
        some groups := by
      rw [← parseIpv6Groups_plain (mem_intercalate_groups hgroup)]
      exact hgroups
    refine ⟨readGroups_zeros hzeros hhigh hlow hread, rfl, .inl ?_⟩
    exact not_pair_infix_intercalate (separated_of_isGroup hgroup)

theorem readMappedTail_groups {high low : List Char} (hhigh : isGroup high = true)
    (hlow : isGroup low = true) :
    readMappedTail ([':'].intercalate [high, low]) =
      some (embedded (parseHex high) (parseHex low)) := by
  have hparts : ∀ part ∈ [high, low], isGroup part = true := by
    simp only [List.forall_mem_cons]
    exact ⟨hhigh, hlow, by simp⟩
  have hdots : '.' ∉ [':'].intercalate [high, low] := by
    intro hdot
    rcases mem_intercalate_groups hparts _ hdot with h | h
    · exact absurd h (by decide)
    · exact absurd h (by decide)
  have hsplit : ([':'].intercalate [high, low]).splitOn ':' = [high, low] :=
    List.splitOn_intercalate ':'
      (fun part hpart => (separated_of_isGroup hparts part hpart).1) (by simp)
  simp only [readMappedTail]
  rw [List.splitOn_eq_singleton hdots, hsplit]
  simp [hhigh, hlow]

theorem readMappedTail_numbers {a b c d : List Char}
    (hnumbers : ∀ part ∈ [a, b, c, d], isShortNumber part = true) :
    readMappedTail (['.'].intercalate [a, b, c, d]) = some (['.'].intercalate [a, b, c, d]) := by
  simp only [readMappedTail, splitOn_numbers rfl hnumbers]
  rw [if_pos]
  rw [Bool.and_eq_true]
  exact ⟨rfl, List.all_eq_true.mpr hnumbers⟩

/-- What follows `::ffff:` in a text that was folded. -/
theorem extract_of_compressed (hparts : parts ≠ []) :
    extractIpv4MappedAddress (':' :: ':' :: [':'].intercalate ("ffff".toList :: parts)) =
      readMappedTail ([':'].intercalate parts) := by
  rw [extractIpv4MappedAddress, foldZeroGroups_of_colon (by decide),
    foldZeroGroups_of_colon (by decide), intercalate_cons hparts]
  simp

/-- Five groups of zeros are folded. -/
theorem extract_of_zeros (hzeros : ∀ part ∈ zeros, IsZeroGroup part) (hfive : zeros.length = 5)
    (hparts : parts ≠ []) :
    extractIpv4MappedAddress ([':'].intercalate (zeros ++ "ffff".toList :: parts)) =
      readMappedTail ([':'].intercalate parts) := by
  have hstrip : stripZeroGroups 5 ([':'].intercalate (zeros ++ "ffff".toList :: parts)) =
      some ([':'].intercalate ("ffff".toList :: parts)) := by
    rw [← hfive]
    exact stripZeroGroups_intercalate hzeros (by simp)
  have hfold : foldZeroGroups [5, 4, 3, 2]
      ([':'].intercalate (zeros ++ "ffff".toList :: parts)) =
        ':' :: ':' :: [':'].intercalate ("ffff".toList :: parts) := by
    have hfront : "ffff:".toList.isPrefixOf
        ([':'].intercalate ("ffff".toList :: parts)) = true := by
      rw [intercalate_cons hparts]
      simp
    rw [foldZeroGroups, List.findSome?_cons, hstrip, Option.filter_some, if_pos hfront]
    rfl
  rw [extractIpv4MappedAddress, hfold, foldZeroGroups_of_colon (by decide),
    intercalate_cons hparts]
  simp

namespace Ipv6Literal

variable {literal : Ipv6Literal}

/-- Two groups or a dotted end are read after `ffff`. -/
theorem readMappedTail_isSome {rest : List (List Char)}
    (hrest : ∀ part ∈ rest, isGroup part = true)
    (hsize : rest.length + 2 * literal.quad.toList.length = 2) :
    rest ++ literal.dotted ≠ [] ∧
      ∃ ip, readMappedTail ([':'].intercalate (rest ++ literal.dotted)) = some ip := by
  cases hquad : literal.quad with
  | none =>
      rw [hquad] at hsize
      obtain ⟨high, low, rfl⟩ := List.length_eq_two.mp hsize
      have hdotted : literal.dotted = [] := by
        rw [dotted, hquad]
        rfl
      rw [hdotted, List.append_nil]
      simp only [List.forall_mem_cons] at hrest
      exact ⟨by simp, _, readMappedTail_groups hrest.1 hrest.2.1⟩
  | some numbers =>
      obtain ⟨hlength, hoctets⟩ := literal.octets numbers hquad
      obtain ⟨a, b, c, d, rfl⟩ := exists_four hlength
      have hnil : rest = [] := by
        rw [hquad] at hsize
        refine List.eq_nil_of_length_eq_zero ?_
        simpa using hsize
      have hdotted : literal.dotted = [['.'].intercalate [a, b, c, d]] := by
        rw [dotted, hquad]
        rfl
      rw [hdotted, hnil, List.nil_append, List.intercalate_singleton]
      exact ⟨by simp, _, readMappedTail_numbers fun part hpart => (hoctets part hpart).1⟩

/-- A mapped address that is written out. -/
theorem extract_of_none {high low : Nat}
    (hgroups : literal.addressGroups = [0, 0, 0, 0, 0, 0xffff, high, low])
    (hafter : literal.after = none) :
    ∃ ip, extractIpv4MappedAddress literal.text = some ip := by
  have hsize := literal.size
  rw [hafter] at hsize
  have hquad : literal.quad.toList.length ≤ 1 := by
    cases literal.quad <;> simp
  simp only [MakesAddress] at hsize
  obtain ⟨zeros, middle, rest, hbefore, hfive⟩ : ∃ zeros middle rest,
      literal.before = zeros ++ middle :: rest ∧ zeros.length = 5 := by
    have hdrop : 0 < (literal.before.drop 5).length := by
      rw [List.length_drop]
      omega
    obtain ⟨middle, rest, hmiddle⟩ := List.exists_cons_of_length_pos hdrop
    refine ⟨literal.before.take 5, middle, rest, ?_, ?_⟩
    · rw [← hmiddle, List.take_append_drop]
    · rw [List.length_take]
      omega
  have hgroup : ∀ part ∈ zeros ++ middle :: rest, isGroup part = true := by
    rw [← hbefore]
    exact fun part => literal.isGroup_of_mem_before
  rw [literal.addressGroups_of_none hafter, hbefore, List.map_append, List.append_assoc]
    at hgroups
  have hlength : (zeros.map parseHex).length = [0, 0, 0, 0, 0].length := by
    rw [List.length_map, hfive]
    rfl
  obtain ⟨hzeros, hmore⟩ :=
    @List.append_inj _ _ [0, 0, 0, 0, 0] _ [0xffff, high, low] hgroups hlength
  have hzeroGroups : ∀ part ∈ zeros, IsZeroGroup part := by
    intro part hpart
    have hpartGroup := hgroup part (List.mem_append_left _ hpart)
    refine ⟨(isGroup_iff.mp hpartGroup).1, zeros_of_parseHex hpartGroup ?_⟩
    have hmem := List.mem_map_of_mem (f := parseHex) hpart
    rw [hzeros] at hmem
    simpa using hmem
  have hmiddle : middle = "ffff".toList := by
    refine eq_of_parseHex_four (hgroup middle (by simp)) isGroup_ffff rfl (by decide) ?_
    exact (List.cons.inj hmore).1
  have hrest : rest.length + 2 * literal.quad.toList.length = 2 := by
    rw [hbefore, List.length_append, List.length_cons, hfive] at hsize
    omega
  obtain ⟨hne, ip, hread⟩ := readMappedTail_isSome
    (fun part hpart => hgroup part (by simp [hpart])) hrest
  refine ⟨ip, ?_⟩
  rw [literal.text_of_none hafter, hbefore, hmiddle, List.append_assoc, List.cons_append,
    extract_of_zeros hzeroGroups hfive hne, hread]

/-- A mapped address that begins with `::ffff:`. -/
theorem extract_of_prefix {high low : Nat} {groups : List (List Char)}
    (hgroups : literal.addressGroups = [0, 0, 0, 0, 0, 0xffff, high, low])
    (hafter : literal.after = some groups)
    (hfront : "::ffff:".toList.isPrefixOf literal.text = true) :
    ∃ ip, extractIpv4MappedAddress literal.text = some ip := by
  have hstart := List.isPrefixOf_iff_prefix.mp hfront
  have hbefore : literal.before = [] := by
    by_contra hne
    obtain ⟨first, rest, hfirst⟩ := List.exists_cons_of_ne_nil hne
    have hgroup := literal.isGroup_of_mem_before (hfirst ▸ List.mem_cons_self)
    obtain ⟨c, first', rfl⟩ := List.exists_cons_of_ne_nil (ne_nil_of_isGroup hgroup)
    have hhex := (isGroup_iff.mp hgroup).2 c List.mem_cons_self
    have hhead : ':' = c := by
      rw [literal.text_of_some hafter, hfirst] at hstart
      cases rest with
      | nil => exact (List.cons_prefix_cons.mp hstart).1
      | cons second rest =>
          rw [intercalate_cons (List.cons_ne_nil _ _)] at hstart
          exact (List.cons_prefix_cons.mp hstart).1
    rw [← hhead] at hhex
    exact absurd hhex (by decide)
  have htext : literal.text = ':' :: ':' :: [':'].intercalate (groups ++ literal.dotted) := by
    rw [literal.text_of_some hafter, hbefore]
    rfl
  have hffff : "ffff:".toList <+: [':'].intercalate (groups ++ literal.dotted) := by
    rw [htext] at hstart
    exact (List.cons_prefix_cons.mp (List.cons_prefix_cons.mp hstart).2).2
  cases groups with
  | nil =>
      -- A dotted end holds no letter.
      exfalso
      obtain h | ⟨part, hpart, hf⟩ :=
        mem_intercalate (hffff.subset (by decide : 'f' ∈ "ffff:".toList))
      · exact absurd h (by decide)
      rw [List.nil_append] at hpart
      obtain ⟨numbers, hnumbers, rfl⟩ := List.mem_map.mp hpart
      rcases mem_intercalate hf with h | ⟨octet, hoctet, hf⟩
      · exact absurd h (by decide)
      · have hoctets := (literal.octets numbers (Option.mem_toList.mp hnumbers)).2
        have hdigit := (isShortNumber_iff.mp (hoctets octet hoctet).1).2 'f' hf
        exact absurd hdigit (by decide)
  | cons first rest =>
      have hgroup : ∀ part ∈ first :: rest, isGroup part = true :=
        fun part => literal.isGroup_of_mem_after hafter
      have hcolon : ':' ∉ first :=
        not_mem_of_isGroup (hgroup first List.mem_cons_self) (by decide)
      have hne : rest ++ literal.dotted ≠ [] := by
        intro hnil
        rw [List.cons_append, hnil, List.intercalate_singleton] at hffff
        exact hcolon (hffff.subset (by decide))
      have hfirst : first = "ffff".toList := by
        obtain ⟨more, hmore⟩ := hffff
        rw [List.cons_append, intercalate_cons hne] at hmore
        exact (@eq_of_append_sep_eq _ _ ':' "ffff".toList _ _ (by decide) _ hcolon hmore).1.symm
      have hsize := literal.size
      rw [hafter, hbefore] at hsize
      simp only [MakesAddress, List.length_nil, List.length_cons] at hsize
      have hrest : rest.length + 2 * literal.quad.toList.length = 2 := by
        rw [literal.addressGroups_of_some hafter, hbefore, hfirst, List.length_nil,
          List.length_cons, List.map_nil, List.nil_append, List.map_cons, List.append_assoc,
          List.cons_append] at hgroups
        have hvalue : parseHex "ffff".toList = 0xffff := by decide
        rw [hvalue] at hgroups
        generalize hfill : 8 - 0 - (rest.length + 1) - 2 * literal.quad.toList.length = fill
          at hgroups
        have hle : fill ≤ 7 := by omega
        interval_cases fill <;> simp at hgroups
        omega
      obtain ⟨-, ip, hread⟩ := readMappedTail_isSome
        (fun part hpart => hgroup part (List.mem_cons_of_mem first hpart)) hrest
      refine ⟨ip, ?_⟩
      rw [htext, hfirst, List.cons_append, extract_of_compressed hne, hread]

/-- A mapped address is read as one exactly when its zeros are spelled in one of
the expected ways. -/
theorem extract_isSome_iff {high low : Nat}
    (hgroups : literal.addressGroups = [0, 0, 0, 0, 0, 0xffff, high, low]) :
    (∃ ip, extractIpv4MappedAddress literal.text = some ip) ↔
      (¬[':', ':'] <:+: literal.text ∨ "::ffff:".toList.isPrefixOf literal.text = true) := by
  constructor
  · rintro ⟨ip, hip⟩
    obtain ⟨-, -, -, -, hspelling⟩ := extract_sound hip literal.parseIpv6Groups_text
    exact hspelling
  · intro hspelling
    cases hafter : literal.after with
    | none => exact extract_of_none hgroups hafter
    | some groups =>
        refine extract_of_prefix hgroups hafter (hspelling.resolve_left fun hfree => hfree ?_)
        rw [literal.text_of_some hafter]
        exact ⟨[':'].intercalate literal.before, [':'].intercalate (groups ++ literal.dotted),
          by simp⟩

end Ipv6Literal

end GoatCitadel.Sandbox
