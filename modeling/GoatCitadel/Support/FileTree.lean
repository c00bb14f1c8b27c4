import Mathlib.Data.List.Induction

/-!
# File trees and path resolution

A file system is a tree of directories, files and symbolic links.  A location
is the list of names that leads to a node through directories only; an absolute
path is a list of names too, but its names may lead through links.

`walk` resolves a path the way the kernel does: a link is replaced by its text,
read from the directory that holds the link, and `..` is taken from the
directory that was really reached.  The number of links that one resolution may
follow is a parameter.  `normalize` is the other reading, which removes `..`
from the text of a path without looking at the tree.  The last section says when
the two agree.
-/

namespace GoatCitadel.Support

/-! ## Paths as texts -/

/-- The components of a path text, empty ones included. -/
def splitPath (text : String) : List String :=
  (text.toList.splitOn '/').map String.ofList

def isAbsolutePath (text : String) : Bool :=
  text.toList.head? == some '/'

/-- A component that names an entry of a directory. -/
def PlainName (name : String) : Prop :=
  name ≠ "" ∧ name ≠ "." ∧ name ≠ ".."

/-- Append one component to an absolute path, cancelling `..` lexically. -/
def appendName (path : List String) (name : String) : List String :=
  if name = "" ∨ name = "." then path
  else if name = ".." then path.dropLast
  else path ++ [name]

/-- Append components to an absolute path, cancelling `..` lexically. -/
def normalize (path : List String) (names : List String) : List String :=
  names.foldl appendName path

/-- Where reading a path text starts. -/
def textBase (path : List String) (text : String) : List String :=
  if isAbsolutePath text then [] else path

/-- `path.resolve(base, text)`, for an absolute `base`. -/
def resolvePath (path : List String) (text : String) : List String :=
  normalize (textBase path text) (splitPath text)

variable {path target : List String} {tree : FileNode}

@[simp]
theorem normalize_nil (path : List String) : normalize path [] = path := rfl

@[simp]
theorem normalize_cons (path : List String) (name : String) (names : List String) :
    normalize path (name :: names) = normalize (appendName path name) names := rfl

theorem appendName_plain {name : String} (h : ∀ x ∈ path, PlainName x) :
    ∀ x ∈ appendName path name, PlainName x := by
  intro x hx
  unfold appendName at hx
  split at hx
  · exact h x hx
  · split at hx
    · exact h x (List.dropLast_subset path hx)
    · rename_i hdot hup
      rcases List.mem_append.mp hx with hold | hnew
      · exact h x hold
      · rw [List.mem_singleton.mp hnew]
        push Not at hdot
        exact ⟨hdot.1, hdot.2, hup⟩

theorem normalize_plain (names : List String) (h : ∀ x ∈ path, PlainName x) :
    ∀ x ∈ normalize path names, PlainName x := by
  induction names generalizing path with
  | nil => exact h
  | cons name names ih => exact ih (appendName_plain h)

theorem textBase_plain (text : String) (h : ∀ x ∈ path, PlainName x) :
    ∀ x ∈ textBase path text, PlainName x := by
  unfold textBase
  split
  · simp
  · exact h

theorem resolvePath_plain (text : String) (h : ∀ x ∈ path, PlainName x) :
    ∀ x ∈ resolvePath path text, PlainName x :=
  normalize_plain _ (textBase_plain text h)

/-- What was there before the components of a text is only ever cut. -/
theorem normalize_append (base path names : List String) :
    ∃ kept, kept <+: base ∧ normalize (base ++ path) names = kept ++ normalize path names := by
  induction names generalizing base path with
  | nil => exact ⟨base, List.prefix_rfl, rfl⟩
  | cons name names ih =>
      rw [normalize_cons, normalize_cons]
      by_cases hdot : name = "" ∨ name = "."
      · simp only [appendName, if_pos hdot]
        exact ih base path
      · by_cases hup : name = ".."
        · simp only [appendName, if_neg hdot, if_pos hup]
          cases path using List.reverseRecOn with
          | nil =>
              obtain ⟨kept, hkept, hrest⟩ := ih base.dropLast []
              refine ⟨kept, hkept.trans (List.dropLast_prefix base), ?_⟩
              rwa [List.append_nil] at hrest ⊢
          | append_singleton init last =>
              rw [← List.append_assoc, List.dropLast_concat, List.dropLast_concat]
              exact ih base init
        · simp only [appendName, if_neg hdot, if_neg hup, List.append_assoc]
          exact ih base (path ++ [name])

theorem length_normalize (path names : List String) :
    path.length ≤ (normalize path names).length + names.length := by
  induction names generalizing path with
  | nil => exact Nat.le_refl _
  | cons name names ih =>
      have hstep : path.length ≤ (appendName path name).length + 1 := by
        unfold appendName
        split
        · omega
        · split <;> simp <;> omega
      have hrest := ih (appendName path name)
      rw [normalize_cons, List.length_cons]
      omega

theorem resolvePath_of_absolute {text : String} (h : isAbsolutePath text = true) :
    resolvePath path text = resolvePath [] text := by
  simp [resolvePath, textBase, h]

/-! ## Trees -/

inductive FileNode
  | file
  | symlink (text : String)
  | dir (entries : List (String × FileNode))

namespace FileNode

def isDir : FileNode → Bool
  | .dir _ => true
  | _ => false

def isFile : FileNode → Bool
  | .file => true
  | _ => false

def isSymlink : FileNode → Bool
  | .symlink _ => true
  | _ => false

/-- The node at a location. -/
def lookup : FileNode → List String → Option FileNode
  | node, [] => some node
  | .dir entries, name :: rest =>
      match entries.lookup name with
      | some child => child.lookup rest
      | none => none
  | _, _ :: _ => none

/-- There is a directory at the location. -/
def isDirAt (tree : FileNode) (path : List String) : Bool :=
  (tree.lookup path).any isDir

/-- There is a file at the location. -/
def isFileAt (tree : FileNode) (path : List String) : Bool :=
  (tree.lookup path).any isFile

@[simp]
theorem lookup_nil (tree : FileNode) : tree.lookup [] = some tree := by
  cases tree <;> rfl

theorem lookup_append (tree : FileNode) (path rest : List String) :
    tree.lookup (path ++ rest) = (tree.lookup path).bind fun node => node.lookup rest := by
  induction path generalizing tree with
  | nil => simp
  | cons name path ih =>
      cases tree with
      | file => rfl
      | symlink text => rfl
      | dir entries =>
          simp only [List.cons_append, lookup]
          cases entries.lookup name with
          | none => rfl
          | some child => exact ih child

/-- What lies below a location is below a directory. -/
theorem isDirAt_of_lookup_append (path : List String) (name : String) (rest : List String)
    (h : (tree.lookup (path ++ name :: rest)).isSome = true) : tree.isDirAt path = true := by
  rw [lookup_append] at h
  cases hnode : tree.lookup path with
  | none => simp [hnode] at h
  | some node =>
      rw [hnode] at h
      cases node with
      | file => simp [lookup] at h
      | symlink text => simp [lookup] at h
      | dir entries => simp [isDirAt, hnode, isDir]

theorem isDirAt_dropLast (h : tree.isDirAt path = true) : tree.isDirAt path.dropLast = true := by
  cases path using List.reverseRecOn with
  | nil => exact h
  | append_singleton init last =>
      rw [List.dropLast_concat]
      refine isDirAt_of_lookup_append init last [] ?_
      unfold isDirAt at h
      cases hnode : tree.lookup (init ++ [last]) with
      | none => simp [hnode] at h
      | some node => rfl

theorem isDirAt_nil (h : tree.isDirAt path = true) : tree.isDirAt [] = true := by
  cases path with
  | nil => exact h
  | cons name rest =>
      refine isDirAt_of_lookup_append [] name rest ?_
      unfold isDirAt at h
      cases hnode : tree.lookup (name :: rest) with
      | none => simp [hnode] at h
      | some node => simp [hnode]

theorem isDirAt_textBase (text : String) (h : tree.isDirAt path = true) :
    tree.isDirAt (textBase path text) = true := by
  unfold textBase
  split
  · exact isDirAt_nil h
  · exact h

end FileNode

/-! ## Resolution by the kernel -/

inductive Errno
  | enoent
  | enotdir
  | eloop
  deriving DecidableEq

/-- What a path resolves to: an existing location, with the number of links that
may still be followed; a missing entry of an existing directory; or an error. -/
inductive Resolution
  | found (left : Nat) (path : List String)
  | missing (path : List String)
  | failed (errno : Errno)
  deriving DecidableEq

/-- Resolve components from a directory.  `follow` goes on after a link. -/
def walkWith (tree : FileNode) (follow : List String → List String → Resolution)
    (left : Nat) : List String → List String → Resolution
  | path, [] => .found left path
  | path, name :: rest =>
      if name = "" ∨ name = "." then walkWith tree follow left path rest
      else if name = ".." then walkWith tree follow left path.dropLast rest
      else
        match tree.lookup (path ++ [name]) with
        | none =>
            if rest = [] then .missing (path ++ [name]) else .failed .enoent
        | some (.dir _) => walkWith tree follow left (path ++ [name]) rest
        | some .file =>
            if rest = [] then .found left (path ++ [name]) else .failed .enotdir
        | some (.symlink text) =>
            if text = "" then .failed .enoent
            else follow (textBase path text) (splitPath text ++ rest)

/-- Resolve components from a directory, following at most `left` links. -/
def walk (tree : FileNode) : Nat → List String → List String → Resolution
  | 0 => walkWith tree (fun _ _ => .failed .eloop) 0
  | left + 1 => walkWith tree (walk tree left) (left + 1)

section

attribute [local simp] walk walkWith

variable {tree : FileNode} {left : Nat} {path names : List String} {name : String}

@[simp]
theorem walk_nil : walk tree left path [] = .found left path := by
  cases left <;> rfl

theorem walk_skip (h : name = "" ∨ name = ".") :
    walk tree left path (name :: names) = walk tree left path names := by
  cases left <;> simp [h]

theorem walk_up : walk tree left path (".." :: names) = walk tree left path.dropLast names := by
  cases left <;> simp

theorem walk_absent (hplain : PlainName name) (h : tree.lookup (path ++ [name]) = none) :
    walk tree left path (name :: names) =
      if names = [] then .missing (path ++ [name]) else .failed .enoent := by
  obtain ⟨h1, h2, h3⟩ := hplain
  cases left <;> simp [h, h1, h2, h3]

theorem walk_dir {entries : List (String × FileNode)} (hplain : PlainName name)
    (h : tree.lookup (path ++ [name]) = some (.dir entries)) :
    walk tree left path (name :: names) = walk tree left (path ++ [name]) names := by
  obtain ⟨h1, h2, h3⟩ := hplain
  cases left <;> simp [h, h1, h2, h3]

theorem walk_file (hplain : PlainName name) (h : tree.lookup (path ++ [name]) = some .file) :
    walk tree left path (name :: names) =
      if names = [] then .found left (path ++ [name]) else .failed .enotdir := by
  obtain ⟨h1, h2, h3⟩ := hplain
  cases left <;> simp [h, h1, h2, h3]

theorem walk_symlink {text : String} (hplain : PlainName name)
    (h : tree.lookup (path ++ [name]) = some (.symlink text)) :
    walk tree left path (name :: names) =
      if text = "" then .failed .enoent
      else
        match left with
        | 0 => .failed .eloop
        | left + 1 => walk tree left (textBase path text) (splitPath text ++ names) := by
  obtain ⟨h1, h2, h3⟩ := hplain
  cases left <;> simp [h, h1, h2, h3]

/-- The components of a path fall into four kinds. -/
theorem name_cases (name : String) :
    (name = "" ∨ name = ".") ∨ name = ".." ∨ PlainName name := by
  by_cases hdot : name = "" ∨ name = "."
  · exact .inl hdot
  · by_cases hup : name = ".."
    · exact .inr (.inl hup)
    · push Not at hdot
      exact .inr (.inr ⟨hdot.1, hdot.2, hup⟩)

end

/-- Go on with further components from what was resolved so far. -/
def Resolution.andThen (tree : FileNode) (names : List String) :
    Resolution → Resolution
  | .found left path =>
      if names = [] then .found left path
      else if tree.isDirAt path then walk tree left path names
      else .failed .enotdir
  | .missing path => if names = [] then .missing path else .failed .enoent
  | .failed errno => .failed errno

/-- Resolving a path is resolving its first part and then, from there, the
rest. -/
theorem walk_append (left : Nat) (first rest : List String) (hdir : tree.isDirAt path = true) :
    walk tree left path (first ++ rest) =
      (walk tree left path first).andThen tree rest := by
  induction left using Nat.strongRecOn generalizing path first with
  | ind left ihleft =>
      induction first generalizing path with
      | nil =>
          by_cases hrest : rest = []
          · simp [Resolution.andThen, hrest]
          · simp [Resolution.andThen, hrest, hdir]
      | cons name first ih =>
          rw [List.cons_append]
          rcases name_cases name with hdot | rfl | hplain
          · rw [walk_skip hdot, walk_skip hdot, ih hdir]
          · rw [walk_up, walk_up, ih (FileNode.isDirAt_dropLast hdir)]
          · cases hnode : tree.lookup (path ++ [name]) with
            | none =>
                rw [walk_absent hplain hnode, walk_absent hplain hnode]
                cases first <;> simp [Resolution.andThen]
            | some node =>
                cases node with
                | dir entries =>
                    rw [walk_dir hplain hnode, walk_dir hplain hnode]
                    exact ih (by simp [FileNode.isDirAt, hnode, FileNode.isDir])
                | file =>
                    rw [walk_file hplain hnode, walk_file hplain hnode]
                    cases first <;>
                      simp [Resolution.andThen, FileNode.isDirAt, hnode, FileNode.isDir]
                | symlink text =>
                    rw [walk_symlink hplain hnode, walk_symlink hplain hnode]
                    split
                    · rfl
                    · cases left with
                      | zero => rfl
                      | succ left =>
                          simp only [← List.append_assoc]
                          exact ihleft left (Nat.lt_succ_self left) _
                            (FileNode.isDirAt_textBase text hdir)

/-- A resolution that ends at a missing entry ends there too when more links
may be followed. -/
theorem walk_missing_mono {left more : Nat} {names : List String} (hle : left ≤ more)
    (h : walk tree left path names = .missing target) :
    walk tree more path names = .missing target := by
  induction left using Nat.strongRecOn generalizing more path names with
  | ind left ihleft =>
      induction names generalizing path with
      | nil => simp at h
      | cons name names ih =>
          rcases name_cases name with hdot | rfl | hplain
          · rw [walk_skip hdot] at h ⊢
            exact ih h
          · rw [walk_up] at h ⊢
            exact ih h
          · cases hnode : tree.lookup (path ++ [name]) with
            | none =>
                rw [walk_absent hplain hnode] at h ⊢
                exact h
            | some node =>
                cases node with
                | dir entries =>
                    rw [walk_dir hplain hnode] at h ⊢
                    exact ih h
                | file =>
                    rw [walk_file hplain hnode] at h
                    split at h <;> cases h
                | symlink text =>
                    rw [walk_symlink hplain hnode] at h ⊢
                    split at h
                    · cases h
                    · rename_i htext
                      rw [if_neg htext]
                      cases left with
                      | zero => cases h
                      | succ left =>
                          cases more with
                          | zero => omega
                          | succ more =>
                              exact ihleft left (Nat.lt_succ_self left)
                                (Nat.le_of_succ_le_succ hle) h

/-- A resolved path has plain names only, and resolving it used up links of the
budget. -/
theorem walk_found_plain {left left' : Nat} {names : List String} (hplain : ∀ x ∈ path, PlainName x)
    (h : walk tree left path names = .found left' target) :
    left' ≤ left ∧ ∀ x ∈ target, PlainName x := by
  induction left using Nat.strongRecOn generalizing path names with
  | ind left ihleft =>
      induction names generalizing path with
      | nil =>
          rw [walk_nil] at h
          cases h
          exact ⟨Nat.le_refl _, hplain⟩
      | cons name names ih =>
          have happend : PlainName name → ∀ x ∈ path ++ [name], PlainName x := by
            intro hname x hx
            rcases List.mem_append.mp hx with hold | hnew
            · exact hplain x hold
            · rw [List.mem_singleton.mp hnew]
              exact hname
          rcases name_cases name with hdot | rfl | hname
          · rw [walk_skip hdot] at h
            exact ih hplain h
          · rw [walk_up] at h
            exact ih (fun x hx => hplain x (List.dropLast_subset path hx)) h
          · cases hnode : tree.lookup (path ++ [name]) with
            | none =>
                rw [walk_absent hname hnode] at h
                split at h <;> cases h
            | some node =>
                cases node with
                | dir entries =>
                    rw [walk_dir hname hnode] at h
                    exact ih (happend hname) h
                | file =>
                    rw [walk_file hname hnode] at h
                    split at h
                    · cases h
                      exact ⟨Nat.le_refl _, happend hname⟩
                    · cases h
                | symlink text =>
                    rw [walk_symlink hname hnode] at h
                    split at h
                    · cases h
                    · cases left with
                      | zero => cases h
                      | succ left =>
                          obtain ⟨hle, htarget⟩ := ihleft left (Nat.lt_succ_self left)
                            (textBase_plain text hplain) h
                          exact ⟨Nat.le_succ_of_le hle, htarget⟩

/-- A directory's own location resolves to itself and follows no link. -/
theorem walk_location (left : Nat) (hplain : ∀ x ∈ target, PlainName x)
    (hdir : tree.isDirAt target = true) : walk tree left [] target = .found left target := by
  induction target using List.reverseRecOn with
  | nil => exact walk_nil
  | append_singleton init last ih =>
      have hinit : tree.isDirAt init = true := by
        have hdrop := FileNode.isDirAt_dropLast hdir
        rwa [List.dropLast_concat] at hdrop
      rw [walk_append left init [last] (FileNode.isDirAt_nil hdir),
        ih (fun x hx => hplain x (List.mem_append_left [last] hx)) hinit]
      simp only [Resolution.andThen, List.cons_ne_nil, if_false, hinit, if_true]
      have hlast : PlainName last := hplain last (by simp)
      unfold FileNode.isDirAt at hdir
      cases hnode : tree.lookup (init ++ [last]) with
      | none => simp [hnode] at hdir
      | some node =>
          cases node with
          | dir entries => rw [walk_dir hlast hnode, walk_nil]
          | file => simp [hnode, FileNode.isDir] at hdir
          | symlink text => simp [hnode, FileNode.isDir] at hdir

/-! ## System calls -/

/-- The node that a path names; a link at its end is not followed. -/
def lstat (tree : FileNode) (limit : Nat) (path : List String) :
    Except Errno FileNode :=
  match path.getLast? with
  | none => .ok tree
  | some name =>
      match walk tree limit [] path.dropLast with
      | .found _ dir =>
          if tree.isDirAt dir then
            match tree.lookup (dir ++ [name]) with
            | some node => .ok node
            | none => .error .enoent
          else .error .enotdir
      | .missing _ => .error .enoent
      | .failed errno => .error errno

/-- The location of an existing path. -/
def realpath (tree : FileNode) (limit : Nat) (path : List String) :
    Except Errno (List String) :=
  match walk tree limit [] path with
  | .found _ location => .ok location
  | .missing _ => .error .enoent
  | .failed errno => .error errno

def pathExists (tree : FileNode) (limit : Nat) (path : List String) : Bool :=
  (realpath tree limit path).isOk

/-- The location that `open` creates or overwrites for writing. -/
def createTarget (tree : FileNode) (limit : Nat) (path : List String) :
    Option (List String) :=
  match walk tree limit [] path with
  | .found _ location => if tree.isFileAt location then some location else none
  | .missing location => some location
  | .failed _ => none

/-- The path names a symbolic link. -/
def isLinkAt (tree : FileNode) (limit : Nat) (path : List String) : Bool :=
  match lstat tree limit path with
  | .ok node => node.isSymlink
  | .error _ => false

theorem realpath_eq_ok {limit : Nat} {location : List String} :
    realpath tree limit path = .ok location ↔
      ∃ left, walk tree limit [] path = .found left location := by
  unfold realpath
  cases walk tree limit [] path <;> simp

theorem pathExists_eq_false_of_missing {limit : Nat} {location : List String}
    (h : walk tree limit [] path = .missing location) : pathExists tree limit path = false := by
  simp [pathExists, realpath, h, Except.isOk, Except.toBool]

/-- A path that resolves to a missing entry leads to an existing directory and
then to nothing, or to a link. -/
theorem walk_missing_concat {left : Nat} {init : List String} {last : String}
    (hroot : tree.isDirAt [] = true) (h : walk tree left [] (init ++ [last]) = .missing target) :
    ∃ left' dir, walk tree left [] init = .found left' dir ∧
      tree.isDirAt dir = true ∧ walk tree left' dir [last] = .missing target := by
  rw [walk_append left init [last] hroot] at h
  cases hinit : walk tree left [] init with
  | failed errno => simp [hinit, Resolution.andThen] at h
  | missing path => simp [hinit, Resolution.andThen] at h
  | found left' dir =>
      by_cases hdir : tree.isDirAt dir = true
      · exact ⟨left', dir, rfl, hdir, by simpa [hinit, Resolution.andThen, hdir] using h⟩
      · simp [hinit, Resolution.andThen, hdir] at h

/-- The call `lstat` on a path whose directory exists. -/
theorem lstat_concat {limit left : Nat} {init dir : List String} (last : String)
    (hinit : walk tree limit [] init = .found left dir) (hdir : tree.isDirAt dir = true) :
    lstat tree limit (init ++ [last]) =
      match tree.lookup (dir ++ [last]) with
      | some node => .ok node
      | none => .error .enoent := by
  simp [lstat, hinit, hdir]

/-! ## When the lexical reading is the physical one -/

/-- Reading the components after `path`, no `..` takes back the name of a
link. -/
def dotDotsUndoNoLink (tree : FileNode) (limit : Nat) :
    List String → List String → Bool
  | _, [] => true
  | path, name :: rest =>
      if name = "" ∨ name = "." then dotDotsUndoNoLink tree limit path rest
      else if name = ".." then
        !isLinkAt tree limit path && dotDotsUndoNoLink tree limit path.dropLast rest
      else dotDotsUndoNoLink tree limit (path ++ [name]) rest

section

attribute [local simp] dotDotsUndoNoLink

variable {tree : FileNode} {limit : Nat} {path names : List String}

theorem dotDotsUndoNoLink_skip {name : String} (h : name = "" ∨ name = ".") :
    dotDotsUndoNoLink tree limit path (name :: names) =
      dotDotsUndoNoLink tree limit path names := by
  simp [h]

theorem dotDotsUndoNoLink_up :
    dotDotsUndoNoLink tree limit path (".." :: names) =
      (!isLinkAt tree limit path && dotDotsUndoNoLink tree limit path.dropLast names) := by
  simp

theorem dotDotsUndoNoLink_plain {name : String} (h : PlainName name) :
    dotDotsUndoNoLink tree limit path (name :: names) =
      dotDotsUndoNoLink tree limit (path ++ [name]) names := by
  obtain ⟨h1, h2, h3⟩ := h
  simp [h1, h2, h3]

theorem appendName_skip {name : String} (h : name = "" ∨ name = ".") :
    appendName path name = path := by
  simp [appendName, h]

theorem appendName_up : appendName path ".." = path.dropLast := by
  simp [appendName]

theorem appendName_of_plain {name : String} (h : PlainName name) :
    appendName path name = path ++ [name] := by
  obtain ⟨h1, h2, h3⟩ := h
  simp [appendName, h1, h2, h3]

/-- Taking back a name that is not a link leads to the directory above. -/
theorem walk_dropLast {left : Nat} {dir : List String}
    (hpath : walk tree limit [] path = .found left dir)
    (hdir : tree.isDirAt dir = true) (hplain : ∀ x ∈ path, PlainName x)
    (hlink : isLinkAt tree limit path = false) :
    walk tree limit [] path.dropLast = .found left dir.dropLast := by
  cases path using List.reverseRecOn with
  | nil =>
      rw [walk_nil] at hpath
      cases hpath
      simp
  | append_singleton init last =>
      have hlast : PlainName last := hplain last (by simp)
      rw [List.dropLast_concat]
      have hroot := FileNode.isDirAt_nil hdir
      rw [walk_append limit init [last] hroot] at hpath
      cases hinit : walk tree limit [] init with
      | failed errno => simp [hinit, Resolution.andThen] at hpath
      | missing location => simp [hinit, Resolution.andThen] at hpath
      | found left' dir' =>
          by_cases hdir' : tree.isDirAt dir' = true
          · have hwalk : walk tree left' dir' [last] = .found left dir := by
              simpa [hinit, Resolution.andThen, hdir'] using hpath
            have hstat := lstat_concat last hinit hdir'
            cases hnode : tree.lookup (dir' ++ [last]) with
            | none =>
                rw [walk_absent hlast hnode] at hwalk
                cases hwalk
            | some node =>
                cases node with
                | dir entries =>
                    rw [walk_dir hlast hnode, walk_nil] at hwalk
                    cases hwalk
                    rw [List.dropLast_concat]
                | file =>
                    rw [walk_file hlast hnode] at hwalk
                    cases hwalk
                    simp [FileNode.isDirAt, hnode, FileNode.isDir] at hdir
                | symlink text =>
                    simp [isLinkAt, hstat, hnode, FileNode.isSymlink] at hlink
          · simp [hinit, Resolution.andThen, hdir'] at hpath

/-- Where no `..` takes back a link, the normalised path leads to the missing
entry that the components lead to. -/
theorem walk_normalize {left : Nat} {dir : List String}
    (hpath : walk tree limit [] path = .found left dir) (hdir : tree.isDirAt dir = true)
    (hplain : ∀ x ∈ path, PlainName x) (hsafe : dotDotsUndoNoLink tree limit path names = true)
    (h : walk tree left dir names = .missing target) :
    walk tree limit [] (normalize path names) = .missing target := by
  have hroot := FileNode.isDirAt_nil hdir
  induction names generalizing path left dir with
  | nil => simp at h
  | cons name names ih =>
      rw [normalize_cons]
      rcases name_cases name with hdot | rfl | hname
      · rw [walk_skip hdot] at h
        rw [dotDotsUndoNoLink_skip hdot] at hsafe
        rw [appendName_skip hdot]
        exact ih hpath hdir hplain hsafe h
      · rw [walk_up] at h
        rw [dotDotsUndoNoLink_up, Bool.and_eq_true, Bool.not_eq_true'] at hsafe
        rw [appendName_up]
        exact ih (walk_dropLast hpath hdir hplain hsafe.1)
          (FileNode.isDirAt_dropLast hdir)
          (fun x hx => hplain x (List.dropLast_subset path hx)) hsafe.2 h
      · rw [dotDotsUndoNoLink_plain hname] at hsafe
        rw [appendName_of_plain hname]
        have hstep : walk tree limit [] (path ++ [name]) = walk tree left dir [name] := by
          rw [walk_append limit path [name] hroot, hpath]
          simp [Resolution.andThen, hdir]
        have hsplit : (walk tree left dir [name]).andThen tree names = .missing target := by
          rw [← walk_append left [name] names hdir]
          exact h
        cases hnext : walk tree left dir [name] with
        | failed errno => simp [hnext, Resolution.andThen] at hsplit
        | missing location =>
            rw [hnext] at hsplit hstep
            by_cases hnames : names = []
            · subst hnames
              simpa [Resolution.andThen, hstep] using hsplit
            · simp [Resolution.andThen, hnames] at hsplit
        | found left' dir' =>
            rw [hnext] at hsplit hstep
            by_cases hnames : names = []
            · simp [Resolution.andThen, hnames] at hsplit
            · by_cases hdir' : tree.isDirAt dir' = true
              · refine ih hstep hdir' ?_ hsafe ?_
                · intro x hx
                  rcases List.mem_append.mp hx with hold | hnew
                  · exact hplain x hold
                  · rw [List.mem_singleton.mp hnew]
                    exact hname
                · simpa [Resolution.andThen, hnames, hdir'] using hsplit
              · simp [Resolution.andThen, hnames, hdir'] at hsplit

end

end GoatCitadel.Support
