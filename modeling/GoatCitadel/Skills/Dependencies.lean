import Mathlib.Data.List.Basic
import Mathlib.Data.List.Infix
import Mathlib.Data.List.Nodup
import Mathlib.Data.List.Perm.Subperm
import Mathlib.Logic.Relation

/-!
# Dependencies of skills

The skills that are activated are put into an order in which every skill comes after those that it
requires.  The visit is depth first; a skill that is met again while it is visited, or whose
requirements cannot be met, is blocked.  One set of visited names serves all roots.
-/

namespace GoatCitadel.Skills

/-- A skill, with what the resolution reads of it. -/
structure LoadedSkill where
  name : String
  requires : List String
  deriving DecidableEq

structure BlockedSkill where
  skill : String
  reason : String
  deriving DecidableEq

/-- The sets and lists that the visits share. -/
structure Resolution where
  ordered : List LoadedSkill
  blocked : List BlockedSkill
  blockedByName : List String
  visiting : List String
  visited : List String
  deriving DecidableEq

structure DependencyResolutionResult where
  ordered : List LoadedSkill
  blocked : List BlockedSkill
  deriving DecidableEq

/-- `new Map(all.map(...)).get(name)`: the last skill of a name. -/
def skillByName (all : List LoadedSkill) (name : String) : Option LoadedSkill :=
  all.reverse.find? fun skill => skill.name = name

def Resolution.empty : Resolution :=
  ⟨[], [], [], [], []⟩

def Resolution.block (state : Resolution) (skillName reason : String) : Resolution :=
  if skillName ∈ state.blockedByName then state
  else
    { state with
      blockedByName := state.blockedByName ++ [skillName]
      blocked := state.blocked ++ [⟨skillName, reason⟩] }

def chainText (chain : List String) : String :=
  " -> ".intercalate chain

/-- The loop over the requirements of a skill; whether all of them were resolved. -/
def visitRequires (all : List LoadedSkill)
    (visit : LoadedSkill → List String → Resolution → Option (Bool × Resolution))
    (skillName : String) (chain : List String) :
    List String → Bool → Resolution → Option (Bool × Resolution)
  | [], dependenciesOk, state => some (dependenciesOk, state)
  | dep :: deps, dependenciesOk, state =>
      match skillByName all dep with
      | none =>
          visitRequires all visit skillName chain deps false
            (state.block skillName ("missing dependency: " ++ dep))
      | some depSkill =>
          (visit depSkill (chain ++ [skillName]) state).bind fun answer =>
            if answer.1 = true then
              visitRequires all visit skillName chain deps dependenciesOk answer.2
            else
              visitRequires all visit skillName chain deps false
                (answer.2.block skillName ("blocked by dependency " ++ dep ++ ": " ++
                  chainText (chain ++ [skillName, dep])))

/-- What follows the loop. -/
def Resolution.leave (state : Resolution) (skill : LoadedSkill) (dependenciesOk : Bool) :
    Bool × Resolution :=
  let left : Resolution :=
    { state with
      visiting := state.visiting.erase skill.name
      visited := skill.name :: state.visited }
  if dependenciesOk = true ∧ skill.name ∉ left.blockedByName then
    (true, { left with ordered := left.ordered ++ [skill] })
  else (false, left)

/-- Whether the skill is resolved; `none` when the calls are nested deeper than `depth`. -/
def visit (all : List LoadedSkill) :
    Nat → LoadedSkill → List String → Resolution → Option (Bool × Resolution)
  | 0, _, _, _ => none
  | depth + 1, skill, chain, state =>
      if skill.name ∈ state.visited then
        some (decide (skill.name ∉ state.blockedByName), state)
      else if skill.name ∈ state.visiting then
        some (false, state.block skill.name
          ("dependency cycle detected: " ++ chainText (chain ++ [skill.name])))
      else
        (visitRequires all (visit all depth) skill.name chain skill.requires true
          { state with visiting := skill.name :: state.visiting }).map fun answer =>
            answer.2.leave skill answer.1

def visitRoots (all : List LoadedSkill) (depth : Nat) :
    List LoadedSkill → Resolution → Option Resolution
  | [], state => some state
  | skill :: skills, state =>
      (visit all depth skill [] state).bind fun answer => visitRoots all depth skills answer.2

/-- `Map.prototype.set` under the name of a skill. -/
def setByName (items : List LoadedSkill) (item : LoadedSkill) : List LoadedSkill :=
  if items.any (fun other => other.name = item.name) = true then
    items.map fun other => if other.name = item.name then item else other
  else items ++ [item]

def dedupeByName (items : List LoadedSkill) : List LoadedSkill :=
  items.foldl setByName []

/-- The resolution with calls that are nested at most `depth` deep. -/
def resolveDependencies (depth : Nat) (initial all : List LoadedSkill) :
    Option DependencyResolutionResult :=
  (visitRoots all depth initial .empty).map fun state =>
    ⟨dedupeByName state.ordered, state.blocked⟩

/-! ## What can be resolved -/

section Graph

variable (all : List LoadedSkill)

def IsKnown (name : String) : Prop :=
  ∃ skill ∈ all, skill.name = name

/-- The skill of the first name requires the second name. -/
def Requires (name dep : String) : Prop :=
  ∃ skill ∈ all, skill.name = name ∧ dep ∈ skill.requires

/-- Nothing that is required, directly or not, is missing or requires itself. -/
def Resolvable (name : String) : Prop :=
  ∀ other, Relation.ReflTransGen (Requires all) name other →
    IsKnown all other ∧ ¬ Relation.TransGen (Requires all) other other

variable {all}

theorem Resolvable.of_requires {name dep : String} (h : Resolvable all name)
    (hdep : Requires all name dep) : Resolvable all dep :=
  fun other hother => h other (.head hdep hother)

theorem not_resolvable_of_unknown {name dep : String} (hdep : Requires all name dep)
    (hunknown : ¬ IsKnown all dep) : ¬ Resolvable all name :=
  fun h => hunknown (h dep (.single hdep)).1

theorem not_resolvable_of_cycle {name : String} (h : Relation.TransGen (Requires all) name name) :
    ¬ Resolvable all name :=
  fun hresolvable => (hresolvable name .refl).2 h

theorem skillByName_eq_some_iff (hdistinct : (all.map LoadedSkill.name).Nodup) {name : String}
    {skill : LoadedSkill} :
    skillByName all name = some skill ↔ skill ∈ all ∧ skill.name = name := by
  rw [skillByName]
  constructor
  · intro h
    have hname := List.find?_some h
    exact ⟨List.mem_reverse.mp (List.mem_of_find?_eq_some h), of_decide_eq_true hname⟩
  · rintro ⟨hskill, rfl⟩
    cases hfound : all.reverse.find? fun other => other.name = skill.name with
    | none =>
        have hnone := List.find?_eq_none.mp hfound skill (List.mem_reverse.mpr hskill)
        exact absurd (decide_eq_true rfl) hnone
    | some other =>
        have hother := List.mem_reverse.mp (List.mem_of_find?_eq_some hfound)
        have hname := List.find?_some hfound
        rw [List.inj_on_of_nodup_map hdistinct hother hskill (of_decide_eq_true hname)]

theorem skillByName_eq_none_iff {name : String} :
    skillByName all name = none ↔ ¬ IsKnown all name := by
  rw [skillByName, List.find?_eq_none]
  constructor
  · rintro h ⟨skill, hskill, rfl⟩
    exact h skill (List.mem_reverse.mpr hskill) (decide_eq_true rfl)
  · intro h skill hskill hname
    exact h ⟨skill, List.mem_reverse.mp hskill, of_decide_eq_true hname⟩

end Graph

/-! ## The invariant -/

section Invariant

/-- The ordered skills come after what they require, every visited skill is ordered or blocked,
and what is blocked cannot be resolved. -/
structure Sound (all : List LoadedSkill) (state : Resolution) : Prop where
  known : ∀ skill ∈ state.ordered, skill ∈ all
  once : (state.ordered.map LoadedSkill.name).Nodup
  after : ∀ front skill back, state.ordered = front ++ skill :: back →
    ∀ dep ∈ skill.requires, dep ∈ front.map LoadedSkill.name
  seen : ∀ skill ∈ state.ordered, skill.name ∈ state.visited
  judged : ∀ name ∈ state.visited,
    name ∈ state.ordered.map LoadedSkill.name ∨ name ∈ state.blockedByName
  disjoint : ∀ skill ∈ state.ordered, skill.name ∉ state.blockedByName
  reported : state.blocked.map BlockedSkill.skill = state.blockedByName
  blockedOnce : state.blockedByName.Nodup
  stuck : ∀ name ∈ state.blockedByName, ¬ Resolvable all name
  explored : ∀ name ∈ state.visited, ∀ dep, Requires all name dep → IsKnown all dep →
    dep ∈ state.visited ∨ dep ∈ state.visiting
  stackOnce : state.visiting.Nodup
  stackKnown : ∀ name ∈ state.visiting, IsKnown all name
  stackFresh : ∀ name ∈ state.visiting, name ∉ state.visited

/-- A visit adds to the lists and sets, and leaves the stack as it was. -/
structure Grows (state state' : Resolution) : Prop where
  ordered : state.ordered <+: state'.ordered
  blockedByName : state.blockedByName ⊆ state'.blockedByName
  visited : state.visited ⊆ state'.visited
  visiting : state'.visiting = state.visiting

variable {all : List LoadedSkill} {state state' state'' : Resolution} {skill : LoadedSkill}
  {name : String}

theorem Grows.refl (state : Resolution) : Grows state state :=
  ⟨List.prefix_rfl, List.Subset.refl _, List.Subset.refl _, rfl⟩

theorem Grows.trans (h : Grows state state') (h' : Grows state' state'') : Grows state state'' where
  ordered := h.ordered.trans h'.ordered
  blockedByName := List.Subset.trans h.blockedByName h'.blockedByName
  visited := List.Subset.trans h.visited h'.visited
  visiting := h'.visiting.trans h.visiting

theorem sound_empty (all : List LoadedSkill) : Sound all .empty where
  known := List.forall_mem_nil _
  once := .nil
  after _ _ _ h := absurd h.symm (List.append_ne_nil_of_right_ne_nil _ (List.cons_ne_nil _ _))
  seen := List.forall_mem_nil _
  judged := List.forall_mem_nil _
  disjoint := List.forall_mem_nil _
  reported := rfl
  blockedOnce := .nil
  stuck := List.forall_mem_nil _
  explored := List.forall_mem_nil _
  stackOnce := .nil
  stackKnown := List.forall_mem_nil _
  stackFresh := List.forall_mem_nil _

theorem grows_block (state : Resolution) (name reason : String) :
    Grows state (state.block name reason) := by
  rw [Resolution.block]
  split_ifs
  · exact .refl state
  · exact ⟨List.prefix_rfl, List.subset_append_left _ _, List.Subset.refl _, rfl⟩

theorem mem_blockedByName_block (state : Resolution) (name reason : String) :
    name ∈ (state.block name reason).blockedByName := by
  rw [Resolution.block]
  split_ifs with h
  · exact h
  · exact List.mem_append_right _ List.mem_cons_self

/-- A name on the stack that cannot be resolved is blocked. -/
theorem Sound.block (h : Sound all state) (hstack : name ∈ state.visiting)
    (hstuck : ¬ Resolvable all name) (reason : String) : Sound all (state.block name reason) := by
  rw [Resolution.block]
  split_ifs with hblocked
  · exact h
  · have hfresh : ∀ skill ∈ state.ordered, skill.name ≠ name := by
      rintro skill hskill rfl
      exact h.stackFresh _ hstack (h.seen skill hskill)
    refine { h with judged := ?_, disjoint := ?_, reported := ?_, blockedOnce := ?_, stuck := ?_ }
    · intro other hother
      exact (h.judged other hother).imp_right (List.mem_append_left _)
    · intro skill hskill hmem
      rcases List.mem_append.mp hmem with hold | hnew
      · exact h.disjoint skill hskill hold
      · exact hfresh skill hskill (List.mem_singleton.mp hnew)
    · rw [List.map_append, h.reported]
      rfl
    · rw [List.nodup_append']
      refine ⟨h.blockedOnce, List.nodup_singleton _, ?_⟩
      exact List.disjoint_singleton.mpr hblocked
    · intro other hother
      rcases List.mem_append.mp hother with hold | hnew
      · exact h.stuck other hold
      · rwa [List.mem_singleton.mp hnew]

/-- A skill that is not visited is put on the stack. -/
theorem Sound.enter (h : Sound all state) (hskill : skill ∈ all)
    (hvisited : skill.name ∉ state.visited) (hvisiting : skill.name ∉ state.visiting) :
    Sound all { state with visiting := skill.name :: state.visiting } where
  known := h.known
  once := h.once
  after := h.after
  seen := h.seen
  judged := h.judged
  disjoint := h.disjoint
  reported := h.reported
  blockedOnce := h.blockedOnce
  stuck := h.stuck
  explored other hother dep hdep hknown :=
    (h.explored other hother dep hdep hknown).imp_right (List.mem_cons_of_mem _)
  stackOnce := List.nodup_cons.mpr ⟨hvisiting, h.stackOnce⟩
  stackKnown := List.forall_mem_cons.mpr ⟨⟨skill, hskill, rfl⟩, h.stackKnown⟩
  stackFresh := List.forall_mem_cons.mpr ⟨hvisited, h.stackFresh⟩

/-- What a skill leaves that was visited: it is ordered or blocked, and off the stack. -/
theorem Sound.leave {dependenciesOk : Bool} (h : Sound all state) {stack : List String}
    (hskill : skill ∈ all) (hdistinct : (all.map LoadedSkill.name).Nodup)
    (hstack : state.visiting = skill.name :: stack)
    (hexplored : ∀ dep ∈ skill.requires, IsKnown all dep →
      dep ∈ state.visited ∨ dep ∈ state.visiting)
    (hordered : dependenciesOk = true →
      ∀ dep ∈ skill.requires, dep ∈ state.ordered.map LoadedSkill.name)
    (hblocked : dependenciesOk = false → skill.name ∈ state.blockedByName) :
    Sound all (state.leave skill dependenciesOk).2 ∧
      Grows { state with visiting := stack } (state.leave skill dependenciesOk).2 ∧
      skill.name ∈ (state.leave skill dependenciesOk).2.visited ∧
      ((state.leave skill dependenciesOk).1 = true →
        skill.name ∈ (state.leave skill dependenciesOk).2.ordered.map LoadedSkill.name) ∧
      ((state.leave skill dependenciesOk).1 = false → ¬ Resolvable all skill.name) := by
  have hfresh : skill.name ∉ state.visited := by
    apply h.stackFresh
    rw [hstack]
    exact List.mem_cons_self
  have hnew : skill.name ∉ state.ordered.map LoadedSkill.name := by
    intro hmem
    obtain ⟨other, hother, hname⟩ := List.mem_map.mp hmem
    exact hfresh (hname ▸ h.seen other hother)
  have herase : state.visiting.erase skill.name = stack := by
    rw [hstack, List.erase_cons_head]
  have hstackOnce := h.stackOnce
  rw [hstack, List.nodup_cons] at hstackOnce
  -- The skill is visited now, and the stack is what it was before.
  have hexplored' : ∀ name ∈ skill.name :: state.visited, ∀ dep, Requires all name dep →
      IsKnown all dep → dep ∈ skill.name :: state.visited ∨ dep ∈ stack := by
    intro name hname dep hdep hknown
    have hold : dep ∈ state.visited ∨ dep ∈ state.visiting := by
      rcases List.mem_cons.mp hname with rfl | hname
      · obtain ⟨other, hother, hsame, hmem⟩ := hdep
        rw [List.inj_on_of_nodup_map hdistinct hother hskill hsame] at hmem
        exact hexplored dep hmem hknown
      · exact h.explored name hname dep hdep hknown
    rcases hold with hvisited | hvisiting
    · exact .inl (List.mem_cons_of_mem _ hvisited)
    · rw [hstack] at hvisiting
      rcases List.mem_cons.mp hvisiting with rfl | hrest
      · exact .inl List.mem_cons_self
      · exact .inr hrest
  have hstackKnown : ∀ name ∈ stack, IsKnown all name := by
    intro name hname
    apply h.stackKnown
    rw [hstack]
    exact List.mem_cons_of_mem _ hname
  have hstackFresh : ∀ name ∈ stack, name ∉ skill.name :: state.visited := by
    intro name hname hvisited
    rcases List.mem_cons.mp hvisited with rfl | hvisited
    · exact hstackOnce.1 hname
    · refine h.stackFresh name ?_ hvisited
      rw [hstack]
      exact List.mem_cons_of_mem _ hname
  rw [Resolution.leave, herase]
  by_cases hok : dependenciesOk = true ∧ skill.name ∉ state.blockedByName
  · rw [if_pos hok]
    have honce : ((state.ordered ++ [skill]).map LoadedSkill.name).Nodup := by
      rw [List.map_append, List.nodup_append']
      exact ⟨h.once, List.nodup_singleton _, List.disjoint_singleton.mpr hnew⟩
    refine ⟨?_, ⟨List.prefix_append _ _, List.Subset.refl _, List.subset_cons_self _ _, rfl⟩,
      List.mem_cons_self, fun _ => ?_, fun hfalse => nomatch hfalse⟩
    · refine
        { known := ?_, once := honce, after := ?_, seen := ?_, judged := ?_, disjoint := ?_
          reported := h.reported, blockedOnce := h.blockedOnce, stuck := h.stuck
          explored := hexplored', stackOnce := hstackOnce.2, stackKnown := hstackKnown
          stackFresh := hstackFresh }
      · intro other hother
        rcases List.mem_append.mp hother with hold | hlast
        · exact h.known other hold
        · rwa [List.mem_singleton.mp hlast]
      · intro front other back hsplit dep hdep
        rcases List.eq_nil_or_concat back with rfl | ⟨back, last, rfl⟩
        · obtain ⟨rfl, hlast⟩ := List.append_inj' hsplit rfl
          rw [List.singleton_inj.mp hlast] at hordered
          exact hordered hok.1 dep hdep
        · rw [List.concat_eq_append, ← List.cons_append, ← List.append_assoc] at hsplit
          exact h.after front other back (List.append_inj' hsplit rfl).1 dep hdep
      · intro other hother
        rcases List.mem_append.mp hother with hold | hlast
        · exact List.mem_cons_of_mem _ (h.seen other hold)
        · rw [List.mem_singleton.mp hlast]
          exact List.mem_cons_self
      · intro name hname
        rw [List.map_append]
        rcases List.mem_cons.mp hname with rfl | hname
        · exact .inl (List.mem_append_right _ List.mem_cons_self)
        · exact (h.judged name hname).imp_left (List.mem_append_left _)
      · intro other hother
        rcases List.mem_append.mp hother with hold | hlast
        · exact h.disjoint other hold
        · rw [List.mem_singleton.mp hlast]
          exact hok.2
    · rw [List.map_append]
      exact List.mem_append_right _ List.mem_cons_self
  · rw [if_neg hok]
    have hmem : skill.name ∈ state.blockedByName := by
      by_contra hnot
      exact hnot (hblocked (Bool.eq_false_iff.mpr fun htrue => hok ⟨htrue, hnot⟩))
    refine ⟨?_, ⟨List.prefix_rfl, List.Subset.refl _, List.subset_cons_self _ _, rfl⟩,
      List.mem_cons_self, fun htrue => absurd htrue Bool.false_ne_true, fun _ => h.stuck _ hmem⟩
    refine
      { known := h.known, once := h.once, after := h.after, seen := ?_, judged := ?_
        disjoint := h.disjoint, reported := h.reported, blockedOnce := h.blockedOnce
        stuck := h.stuck, explored := hexplored', stackOnce := hstackOnce.2
        stackKnown := hstackKnown, stackFresh := hstackFresh }
    · exact fun other hother => List.mem_cons_of_mem _ (h.seen other hother)
    · exact List.forall_mem_cons.mpr ⟨.inr hmem, h.judged⟩

end Invariant

/-! ## Visits -/

section Visits

/-- What a visit does that is not nested too deep. -/
structure Visits (all : List LoadedSkill) (state : Resolution) (skill : LoadedSkill) (ok : Bool)
    (state' : Resolution) : Prop where
  sound : Sound all state'
  grows : Grows state state'
  explored : skill.name ∈ state'.visited ∨ skill.name ∈ state'.visiting
  ordered : ok = true → skill.name ∈ state'.ordered.map LoadedSkill.name
  stuck : ok = false → ¬ Resolvable all skill.name

variable {all : List LoadedSkill} {depth : Nat} {state : Resolution} {skill : LoadedSkill}

/-- The loop over requirements, given what a visit one level deeper does. -/
theorem visitRequires_spec (hdistinct : (all.map LoadedSkill.name).Nodup)
    {visit : LoadedSkill → List String → Resolution → Option (Bool × Resolution)}
    (hvisit : ∀ dep chain state, dep ∈ all → Sound all state →
      all.length < depth + state.visiting.length →
      (∀ name ∈ state.visiting, Relation.TransGen (Requires all) name dep.name) →
      ∃ ok state', visit dep chain state = some (ok, state') ∧ Visits all state dep ok state')
    (chain : List String) {deps : List String} (dependenciesOk : Bool)
    (hdeps : ∀ dep ∈ deps, Requires all skill.name dep) (hsound : Sound all state)
    (hdepth : all.length < depth + state.visiting.length) (hstack : skill.name ∈ state.visiting)
    (hpath : ∀ name ∈ state.visiting,
      Relation.ReflTransGen (Requires all) name skill.name)
    (hblocked : dependenciesOk = false → skill.name ∈ state.blockedByName) :
    ∃ ok state', visitRequires all visit skill.name chain deps dependenciesOk state =
        some (ok, state') ∧ Sound all state' ∧ Grows state state' ∧
      (∀ dep ∈ deps, IsKnown all dep → dep ∈ state'.visited ∨ dep ∈ state'.visiting) ∧
      (ok = true → ∀ dep ∈ deps, dep ∈ state'.ordered.map LoadedSkill.name) ∧
      (ok = true → dependenciesOk = true) ∧
      (ok = false → skill.name ∈ state'.blockedByName) := by
  induction deps generalizing dependenciesOk state with
  | nil =>
      exact ⟨dependenciesOk, state, rfl, hsound, .refl state, List.forall_mem_nil _,
        fun _ => List.forall_mem_nil _, id, hblocked⟩
  | cons dep deps ih =>
      obtain ⟨hdep, hrest⟩ := List.forall_mem_cons.mp hdeps
      rw [visitRequires]
      cases hfound : skillByName all dep with
      | none =>
          have hunknown := skillByName_eq_none_iff.mp hfound
          have hstuck := not_resolvable_of_unknown hdep hunknown
          have hgrows := grows_block state skill.name ("missing dependency: " ++ dep)
          obtain ⟨ok, state', hloop, hsound', hgrows', hexplored, -, hfalse, hlast⟩ :=
            ih false hrest (hsound.block hstack hstuck _) (hgrows.visiting ▸ hdepth)
              (hgrows.visiting ▸ hstack) (hgrows.visiting ▸ hpath)
              fun _ => mem_blockedByName_block _ _ _
          refine ⟨ok, state', hloop, hsound', hgrows.trans hgrows', ?_, ?_, ?_, hlast⟩
          · exact List.forall_mem_cons.mpr ⟨fun hknown => absurd hknown hunknown, hexplored⟩
          · exact fun hok => nomatch hfalse hok
          · exact fun hok => nomatch hfalse hok
      | some depSkill =>
          obtain ⟨hmem, rfl⟩ := (skillByName_eq_some_iff hdistinct).mp hfound
          obtain ⟨ok, middle, hanswer, hdone⟩ := hvisit depSkill (chain ++ [skill.name]) state hmem
            hsound hdepth fun name hname => .tail' (hpath name hname) hdep
          have hvisiting := hdone.grows.visiting
          dsimp only
          rw [hanswer, Option.bind_some]
          by_cases hok : ok = true
          · rw [if_pos hok]
            obtain ⟨ok', state', hloop, hsound', hgrows', hexplored, hordered, hkept, hlast⟩ :=
              ih dependenciesOk hrest hdone.sound (hvisiting ▸ hdepth) (hvisiting ▸ hstack)
                (hvisiting ▸ hpath) fun hfalse => hdone.grows.blockedByName (hblocked hfalse)
            refine ⟨ok', state', hloop, hsound', hdone.grows.trans hgrows', ?_, ?_, hkept, hlast⟩
            · refine List.forall_mem_cons.mpr ⟨fun _ => ?_, hexplored⟩
              rw [hgrows'.visiting]
              exact hdone.explored.imp_left fun hvisited => hgrows'.visited hvisited
            · intro hok'
              have hfirst := (hgrows'.ordered.map LoadedSkill.name).subset (hdone.ordered hok)
              exact List.forall_mem_cons.mpr ⟨hfirst, hordered hok'⟩
          · rw [if_neg hok]
            have hstuck : ¬ Resolvable all skill.name := fun h =>
              hdone.stuck (Bool.eq_false_iff.mpr hok) (h.of_requires hdep)
            have hblock := grows_block middle skill.name ("blocked by dependency " ++
              depSkill.name ++ ": " ++ chainText (chain ++ [skill.name, depSkill.name]))
            have hvisiting' := hblock.visiting.trans hvisiting
            obtain ⟨ok', state', hloop, hsound', hgrows', hexplored, -, hfalse, hlast⟩ :=
              ih false hrest (hdone.sound.block (hvisiting ▸ hstack) hstuck _)
                (hvisiting' ▸ hdepth) (hvisiting' ▸ hstack) (hvisiting' ▸ hpath)
                fun _ => mem_blockedByName_block _ _ _
            have hgrows := hblock.trans hgrows'
            refine ⟨ok', state', hloop, hsound', hdone.grows.trans hgrows, ?_, ?_, ?_, hlast⟩
            · refine List.forall_mem_cons.mpr ⟨fun _ => ?_, hexplored⟩
              rw [hgrows.visiting]
              exact hdone.explored.imp_left fun hvisited => hgrows.visited hvisited
            · exact fun hok' => nomatch hfalse hok'
            · exact fun hok' => nomatch hfalse hok'

/-- A sound state that leaves the stack no longer than the catalogue. -/
theorem Sound.visiting_length_le (h : Sound all state) : state.visiting.length ≤ all.length := by
  have hsub : state.visiting ⊆ all.map LoadedSkill.name := by
    intro name hname
    obtain ⟨skill, hskill, rfl⟩ := h.stackKnown name hname
    exact List.mem_map_of_mem hskill
  have hle := (h.stackOnce.subperm hsub).length_le
  rwa [List.length_map] at hle

/-- A visit with enough depth answers; by induction on the depth that is left. -/
theorem visit_spec (hdistinct : (all.map LoadedSkill.name).Nodup) (chain : List String)
    (hskill : skill ∈ all) (hsound : Sound all state)
    (hdepth : all.length < depth + state.visiting.length)
    (hpath : ∀ name ∈ state.visiting, Relation.TransGen (Requires all) name skill.name) :
    ∃ ok state', visit all depth skill chain state = some (ok, state') ∧
      Visits all state skill ok state' := by
  induction depth generalizing skill chain state with
  | zero =>
      have hle := hsound.visiting_length_le
      omega
  | succ depth ih =>
      rw [visit]
      by_cases hvisited : skill.name ∈ state.visited
      · rw [if_pos hvisited]
        refine ⟨_, state, rfl, hsound, .refl state, .inl hvisited, fun hok => ?_, fun hok => ?_⟩
        · exact (hsound.judged _ hvisited).resolve_right (of_decide_eq_true hok)
        · exact hsound.stuck _ (not_not.mp (of_decide_eq_false hok))
      rw [if_neg hvisited]
      by_cases hvisiting : skill.name ∈ state.visiting
      · -- The skill is on the stack, so it requires itself.
        rw [if_pos hvisiting]
        have hstuck := not_resolvable_of_cycle (hpath _ hvisiting)
        have hgrows := grows_block state skill.name
          ("dependency cycle detected: " ++ chainText (chain ++ [skill.name]))
        refine ⟨false, _, rfl, hsound.block hvisiting hstuck _, hgrows, .inr ?_, ?_,
          fun _ => hstuck⟩
        · rwa [hgrows.visiting]
        · exact fun hok => nomatch hok
      rw [if_neg hvisiting]
      have hdeps : ∀ dep ∈ skill.requires, Requires all skill.name dep :=
        fun dep hdep => ⟨skill, hskill, rfl, hdep⟩
      have hpath' : ∀ name ∈ skill.name :: state.visiting,
          Relation.ReflTransGen (Requires all) name skill.name :=
        List.forall_mem_cons.mpr ⟨.refl, fun name hname => (hpath name hname).to_reflTransGen⟩
      have hdepth' : all.length < depth + (skill.name :: state.visiting).length := by
        rw [List.length_cons]
        omega
      obtain ⟨ok, state', hloop, hsound', hgrows, hexplored, hordered, -, hblocked⟩ :=
        visitRequires_spec hdistinct
          (fun dep chain state hdep hsound hdepth hpath => ih chain hdep hsound hdepth hpath)
          chain true hdeps (hsound.enter hskill hvisited hvisiting) hdepth' List.mem_cons_self
          hpath' fun hfalse => nomatch hfalse
      obtain ⟨hsoundLeft, hleft, hseen, htrue, hfalse⟩ :=
        hsound'.leave hskill hdistinct hgrows.visiting hexplored hordered hblocked
      refine ⟨_, _, by rw [hloop, Option.map_some], hsoundLeft, ?_, .inl hseen, htrue, hfalse⟩
      exact ⟨hgrows.ordered.trans hleft.ordered,
        List.Subset.trans hgrows.blockedByName hleft.blockedByName,
        List.Subset.trans hgrows.visited hleft.visited, hleft.visiting⟩

/-- The loop over the roots: the stack is empty between them. -/
theorem visitRoots_spec (hdistinct : (all.map LoadedSkill.name).Nodup) {roots : List LoadedSkill}
    (hroots : ∀ skill ∈ roots, skill ∈ all) (hsound : Sound all state)
    (hempty : state.visiting = []) (hdepth : all.length < depth) :
    ∃ state', visitRoots all depth roots state = some state' ∧ Sound all state' ∧
      state'.visiting = [] ∧ Grows state state' ∧ ∀ skill ∈ roots, skill.name ∈ state'.visited := by
  induction roots generalizing state with
  | nil => exact ⟨state, rfl, hsound, hempty, .refl state, List.forall_mem_nil _⟩
  | cons skill roots ih =>
      obtain ⟨hskill, hrest⟩ := List.forall_mem_cons.mp hroots
      have hpath : ∀ name ∈ state.visiting, Relation.TransGen (Requires all) name skill.name := by
        rw [hempty]
        exact List.forall_mem_nil _
      obtain ⟨ok, middle, hanswer, hdone⟩ := visit_spec hdistinct [] hskill hsound
        (hdepth.trans_le (Nat.le_add_right _ _)) hpath
      have hempty' := hdone.grows.visiting.trans hempty
      obtain ⟨state', hloop, hsound', hlast, hgrows, hseen⟩ := ih hrest hdone.sound hempty'
      refine ⟨state', ?_, hsound', hlast, hdone.grows.trans hgrows, ?_⟩
      · rw [visitRoots, hanswer, Option.bind_some]
        exact hloop
      · refine List.forall_mem_cons.mpr ⟨hgrows.visited ?_, hseen⟩
        refine hdone.explored.resolve_right ?_
        rw [hempty']
        exact List.not_mem_nil

end Visits

/-! ## More depth -/

section Depth

variable {all : List LoadedSkill} {state : Resolution}

/-- A loop that answers keeps its answer with visits that answer as often. -/
theorem visitRequires_mono
    {visit visit' : LoadedSkill → List String → Resolution → Option (Bool × Resolution)}
    (hvisit : ∀ skill chain state answer, visit skill chain state = some answer →
      visit' skill chain state = some answer)
    {skillName : String} {chain deps : List String} {dependenciesOk : Bool}
    {answer : Bool × Resolution}
    (h : visitRequires all visit skillName chain deps dependenciesOk state = some answer) :
    visitRequires all visit' skillName chain deps dependenciesOk state = some answer := by
  induction deps generalizing dependenciesOk state with
  | nil => exact h
  | cons dep deps ih =>
      rw [visitRequires] at h ⊢
      cases hfound : skillByName all dep with
      | none =>
          rw [hfound] at h
          exact ih h
      | some depSkill =>
          rw [hfound] at h
          obtain ⟨middle, hmiddle, hrest⟩ := Option.bind_eq_some_iff.mp h
          dsimp only
          rw [hvisit _ _ _ _ hmiddle, Option.bind_some]
          by_cases hok : middle.1 = true
          · rw [if_pos hok] at hrest ⊢
            exact ih hrest
          · rw [if_neg hok] at hrest ⊢
            exact ih hrest

theorem visit_succ {depth : Nat} {skill : LoadedSkill} {chain : List String}
    {answer : Bool × Resolution} (h : visit all depth skill chain state = some answer) :
    visit all (depth + 1) skill chain state = some answer := by
  induction depth generalizing skill chain state answer with
  | zero => exact nomatch h
  | succ depth ih =>
      rw [visit] at h ⊢
      by_cases hvisited : skill.name ∈ state.visited
      · rwa [if_pos hvisited] at h ⊢
      rw [if_neg hvisited] at h ⊢
      by_cases hvisiting : skill.name ∈ state.visiting
      · rwa [if_pos hvisiting] at h ⊢
      rw [if_neg hvisiting] at h ⊢
      obtain ⟨middle, hmiddle, hleave⟩ := Option.map_eq_some_iff.mp h
      have hloop := visitRequires_mono (fun _ _ _ _ hanswer => ih hanswer) hmiddle
      rw [hloop, Option.map_some, hleave]

theorem visitRoots_succ {depth : Nat} {roots : List LoadedSkill} {state' : Resolution}
    (h : visitRoots all depth roots state = some state') :
    visitRoots all (depth + 1) roots state = some state' := by
  induction roots generalizing state with
  | nil => exact h
  | cons skill roots ih =>
      rw [visitRoots] at h ⊢
      obtain ⟨middle, hmiddle, hrest⟩ := Option.bind_eq_some_iff.mp h
      rw [visit_succ hmiddle, Option.bind_some]
      exact ih hrest

/-- Calls that are allowed to nest deeper give the same answer. -/
theorem visitRoots_mono {depth depth' : Nat} (hle : depth ≤ depth') {roots : List LoadedSkill}
    {state' : Resolution} (h : visitRoots all depth roots state = some state') :
    visitRoots all depth' roots state = some state' := by
  induction hle with
  | refl => exact h
  | step _ ih => exact visitRoots_succ ih

end Depth

/-! ## The result -/

section Result

variable {all initial : List LoadedSkill} {depth : Nat} {state : Resolution}

theorem foldl_setByName_eq (items front : List LoadedSkill)
    (h : ((front ++ items).map LoadedSkill.name).Nodup) :
    items.foldl setByName front = front ++ items := by
  induction items generalizing front with
  | nil => rw [List.foldl_nil, List.append_nil]
  | cons item items ih =>
      have hnew : front.any (fun other => other.name = item.name) = false := by
        rw [List.any_eq_false]
        intro other hother hsame
        rw [List.map_append, List.nodup_append'] at h
        have hmem : item.name ∈ front.map LoadedSkill.name :=
          of_decide_eq_true hsame ▸ List.mem_map_of_mem hother
        exact h.2.2 hmem (List.mem_map_of_mem List.mem_cons_self)
      rw [List.foldl_cons, setByName, hnew, if_neg Bool.false_ne_true, ih, List.append_assoc,
        List.singleton_append]
      rwa [List.append_assoc, List.singleton_append]

/-- Distinct names are left as they are. -/
theorem dedupeByName_eq {items : List LoadedSkill} (h : (items.map LoadedSkill.name).Nodup) :
    dedupeByName items = items := by
  rw [dedupeByName, foldl_setByName_eq items [] h, List.nil_append]

/-- The skill is required by an initial one, directly or not, or is one. -/
def Reachable (all initial : List LoadedSkill) (name : String) : Prop :=
  ∃ root ∈ initial, Relation.ReflTransGen (Requires all) root.name name

/-- What a resolution promises about the skills that the initial ones reach. -/
structure Resolves (all initial : List LoadedSkill) (result : DependencyResolutionResult) :
    Prop where
  once : (result.ordered.map LoadedSkill.name).Nodup
  after : ∀ front skill back, result.ordered = front ++ skill :: back →
    ∀ dep ∈ skill.requires, dep ∈ front.map LoadedSkill.name
  complete : ∀ skill ∈ all, Reachable all initial skill.name →
    (skill ∈ result.ordered ↔ Resolvable all skill.name)
  reported : ∀ skill ∈ all, Reachable all initial skill.name → skill ∉ result.ordered →
    (result.blocked.map BlockedSkill.skill).count skill.name = 1
  disjoint : ∀ skill ∈ result.ordered, skill.name ∉ result.blocked.map BlockedSkill.skill

/-- With an empty stack everything known that a visited name reaches is visited. -/
theorem Sound.visited_of_reaches (h : Sound all state) (hempty : state.visiting = [])
    {name other : String} (hname : name ∈ state.visited)
    (hreach : Relation.ReflTransGen (Requires all) name other) (hknown : IsKnown all other) :
    other ∈ state.visited := by
  induction hreach with
  | refl => exact hname
  | @tail middle other hfront hlast ih =>
      obtain ⟨skill, hskill, rfl, -⟩ := id hlast
      refine (h.explored _ (ih ⟨skill, hskill, rfl⟩) other hlast hknown).resolve_right ?_
      rw [hempty]
      exact List.not_mem_nil

/-- Everything that an ordered skill requires, directly or not, stands before it. -/
theorem Sound.before_of_requires (hdistinct : (all.map LoadedSkill.name).Nodup)
    (h : Sound all state) {front back : List LoadedSkill} {skill : LoadedSkill} {other : String}
    (hsplit : state.ordered = front ++ skill :: back)
    (hreach : Relation.TransGen (Requires all) skill.name other) :
    other ∈ front.map LoadedSkill.name := by
  have hstep : ∀ {front back : List LoadedSkill} {skill : LoadedSkill} {dep : String},
      state.ordered = front ++ skill :: back → Requires all skill.name dep →
      dep ∈ front.map LoadedSkill.name := by
    rintro front back skill dep hsplit ⟨same, hsame, hname, hdep⟩
    have hskill : skill ∈ state.ordered :=
      hsplit ▸ List.mem_append_right _ List.mem_cons_self
    have heq := List.inj_on_of_nodup_map hdistinct hsame (h.known skill hskill) hname
    exact h.after front skill back hsplit dep (heq ▸ hdep)
  induction hreach with
  | single hdep => exact hstep hsplit hdep
  | tail _ hdep ih =>
      obtain ⟨middle, hmiddle, rfl⟩ := List.mem_map.mp ih
      obtain ⟨before, between, hfront⟩ := List.append_of_mem hmiddle
      have hsplit' : state.ordered = before ++ middle :: (between ++ skill :: back) := by
        rw [hsplit, hfront, List.append_assoc, List.cons_append]
      have hmem := hstep hsplit' hdep
      rw [hfront, List.map_append]
      exact List.mem_append_left _ hmem

/-- Nothing that is ordered requires itself, and all it requires is known. -/
theorem Sound.resolvable_of_ordered (hdistinct : (all.map LoadedSkill.name).Nodup)
    (h : Sound all state) {skill : LoadedSkill} (hskill : skill ∈ state.ordered) :
    Resolvable all skill.name := by
  intro other hreach
  have hordered : ∃ same ∈ state.ordered, same.name = other := by
    rcases Relation.reflTransGen_iff_eq_or_transGen.mp hreach with rfl | htrans
    · exact ⟨skill, hskill, rfl⟩
    · obtain ⟨front, back, hsplit⟩ := List.append_of_mem hskill
      obtain ⟨same, hsame, hname⟩ :=
        List.mem_map.mp (h.before_of_requires hdistinct hsplit htrans)
      exact ⟨same, hsplit ▸ List.mem_append_left _ hsame, hname⟩
  obtain ⟨same, hsame, rfl⟩ := hordered
  refine ⟨⟨same, h.known same hsame, rfl⟩, fun hcycle => ?_⟩
  obtain ⟨front, back, hsplit⟩ := List.append_of_mem hsame
  have hbefore := h.before_of_requires hdistinct hsplit hcycle
  have honce := h.once
  rw [hsplit, List.map_append, List.nodup_append'] at honce
  exact honce.2.2 hbefore (List.mem_map_of_mem List.mem_cons_self)

/-- With an empty stack the verdicts do not depend on the order of the visits. -/
theorem Sound.resolves (hdistinct : (all.map LoadedSkill.name).Nodup) (h : Sound all state)
    (hempty : state.visiting = []) (hinitial : ∀ skill ∈ initial, skill.name ∈ state.visited) :
    Resolves all initial ⟨state.ordered, state.blocked⟩ := by
  have hvisited : ∀ skill ∈ all, Reachable all initial skill.name →
      skill.name ∈ state.visited := by
    rintro skill hskill ⟨root, hroot, hreach⟩
    exact h.visited_of_reaches hempty (hinitial root hroot) hreach ⟨skill, hskill, rfl⟩
  have hmem : ∀ skill ∈ all, skill.name ∈ state.ordered.map LoadedSkill.name →
      skill ∈ state.ordered := by
    intro skill hskill hname
    obtain ⟨same, hsame, heq⟩ := List.mem_map.mp hname
    exact List.inj_on_of_nodup_map hdistinct (h.known same hsame) hskill heq ▸ hsame
  have hjudged : ∀ skill ∈ all, Reachable all initial skill.name → skill ∉ state.ordered →
      skill.name ∈ state.blockedByName := by
    intro skill hskill hreach hnot
    exact (h.judged _ (hvisited skill hskill hreach)).resolve_left
      fun hname => hnot (hmem skill hskill hname)
  refine
    { once := h.once, after := h.after, complete := ?_, reported := ?_, disjoint := ?_ }
  · intro skill hskill hreach
    constructor
    · exact h.resolvable_of_ordered hdistinct
    · intro hresolvable
      by_contra hnot
      exact h.stuck _ (hjudged skill hskill hreach hnot) hresolvable
  · intro skill hskill hreach hnot
    dsimp only
    rw [h.reported]
    exact List.count_eq_one_of_mem h.blockedOnce (hjudged skill hskill hreach hnot)
  · intro skill hskill
    dsimp only
    rw [h.reported]
    exact h.disjoint skill hskill

/-- The resolution answers at every depth beyond the number of skills, and always the same: the
skills that can be resolved, in an order in which each comes after what it requires. -/
theorem resolveDependencies_resolves (all initial : List LoadedSkill)
    (hdistinct : (all.map LoadedSkill.name).Nodup) (hinitial : ∀ skill ∈ initial, skill ∈ all) :
    ∃ result, (∀ depth, all.length < depth →
      resolveDependencies depth initial all = some result) ∧ Resolves all initial result := by
  obtain ⟨state, hroots, hsound, hempty, -, hseen⟩ :=
    visitRoots_spec hdistinct hinitial (sound_empty all) rfl (Nat.lt_succ_self all.length)
  refine ⟨⟨state.ordered, state.blocked⟩, fun depth hdepth => ?_,
    hsound.resolves hdistinct hempty hseen⟩
  rw [resolveDependencies, visitRoots_mono hdepth hroots, Option.map_some,
    dedupeByName_eq hsound.once]

/-- A skill that requires itself is reported, and one that requires nothing is resolved. -/
theorem search_resolved : ∃ result,
    (∀ depth, 2 < depth → resolveDependencies depth [⟨"loop", ["loop", "search"]⟩]
      [⟨"loop", ["loop", "search"]⟩, ⟨"search", []⟩] = some result) ∧
    Resolves [⟨"loop", ["loop", "search"]⟩, ⟨"search", []⟩] [⟨"loop", ["loop", "search"]⟩]
      result :=
  resolveDependencies_resolves [⟨"loop", ["loop", "search"]⟩, ⟨"search", []⟩]
    [⟨"loop", ["loop", "search"]⟩] (by decide) (by decide)

end Result

end GoatCitadel.Skills
