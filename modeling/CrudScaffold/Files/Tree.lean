import CrudScaffold.Files.Fault

/-!
# CrudScaffold.Files.Tree — a file tree

A tree maps locations to files and directories.  A location is the list of names from the top; the top itself is
always a directory.  `node?` is the view in which every operation is described.
-/

namespace CrudScaffold.Files

/-- The names from the top to a place in the tree. -/
abbrev Location := List String

/-- What stands at a location. -/
inductive Node where
  | directory
  | file (content : ByteArray)

/-- Decides whether two nodes are the same: two directories, or two files with the same bytes. -/
def Node.decideEq : (a b : Node) → Decidable (a = b)
  | .directory, .directory => isTrue rfl
  | .directory, .file _ => isFalse nofun
  | .file _, .directory => isFalse nofun
  | .file a, .file b =>
    match ByteArray.instDecidableEq a b with
    | isTrue h => isTrue (congrArg Node.file h)
    | isFalse h => isFalse fun e => h (Node.file.inj e)

instance : DecidableEq Node := Node.decideEq

/-- A file tree: what stands at each location but the top, each location once. -/
structure Tree where
  entries : List (Location × Node)

namespace Tree

/-- The tree with nothing in it. -/
def empty : Tree := ⟨[]⟩

/-- What stands at a location. -/
def node? (t : Tree) (at_ : Location) : Option Node := if at_ = [] then some .directory else t.entries.lookup at_

/-- Puts a node at a location, in place of what stands there. -/
def put (t : Tree) (at_ : Location) (n : Node) : Tree :=
  ⟨if t.entries.any (·.1 = at_) then t.entries.map fun e => if e.1 = at_ then (at_, n) else e
    else t.entries ++ [(at_, n)]⟩

/-- Replacing what stands at one location changes what a search finds there, and nowhere else. -/
theorem lookup_replaced (es : List (Location × Node)) (a b : Location) (n : Node) :
    (es.map fun e => if e.1 = a then (a, n) else e).lookup b =
      if b = a then (es.lookup a).map fun _ => n else es.lookup b := by
  induction es with
  | nil => simp
  | cons e es ih =>
    obtain ⟨x, m⟩ := e
    rw [List.map_cons]
    -- `b` is the place of this entry, or one of the rest
    by_cases hx : x = a
    · subst hx
      by_cases hb : b = x
      · subst hb; simp
      · have hbx : (b == x) = false := by simpa using hb
        simp only [if_true, List.lookup_cons, hbx]
        simpa [hb] using ih
    · by_cases hb : b = a
      · subst hb
        have hbx : (b == x) = false := by simpa using fun h => hx h.symm
        simp only [hx, if_false, List.lookup_cons, hbx]
        simpa using ih
      · by_cases hbx : b = x
        · subst hbx; simp [hx]
        · have hbx' : (b == x) = false := by simpa using hbx
          simp only [hx, if_false, List.lookup_cons, hbx']
          simpa [hb] using ih

/-- A location that no entry has is found by no search. -/
theorem lookup_eq_none_of_any {es : List (Location × Node)} {a : Location} (h : es.any (·.1 = a) = false) :
    es.lookup a = none := by
  induction es with
  | nil => rfl
  | cons e es ih =>
    simp only [List.any_cons, Bool.or_eq_false_iff, decide_eq_false_iff_not] at h
    have : (a == e.1) = false := by simpa using fun e' => h.1 e'.symm
    rw [List.lookup_cons, this]
    exact ih h.2

/-- A location that some entry has is found. -/
theorem lookup_isSome_of_any {es : List (Location × Node)} {a : Location} (h : es.any (·.1 = a) = true) :
    (es.lookup a).isSome = true := by
  induction es with
  | nil => simp at h
  | cons e es ih =>
    by_cases he : a = e.1
    · simp [he]
    · have hae : (a == e.1) = false := by simpa using he
      have hea : ¬e.1 = a := fun h => he h.symm
      rw [List.lookup_cons, hae]
      exact ih (by simpa only [List.any_cons, hea, decide_false, Bool.false_or] using h)

/-- A put node is what stands at its location, and nothing else changes. -/
theorem node?_put (t : Tree) (a b : Location) (n : Node) (h : b ≠ []) :
    (t.put a n).node? b = if b = a then some n else t.node? b := by
  unfold node? put
  simp only [h, if_false]
  by_cases ht : t.entries.any (·.1 = a) = true
  · simp only [ht, if_true, lookup_replaced]
    obtain ⟨m, hm⟩ := Option.isSome_iff_exists.1 (lookup_isSome_of_any ht)
    simp [hm]
  · have hf : t.entries.any (·.1 = a) = false := Bool.eq_false_iff.2 ht
    simp only [hf, Bool.false_eq_true, if_false, List.lookup_append]
    by_cases hb : b = a
    · subst hb; simp [lookup_eq_none_of_any hf]
    · have : (b == a) = false := by simpa using hb
      simp [hb, List.lookup_cons, this]

/-- What stands in `after` and does not stand so in `before`. -/
def changes (before after : Tree) : List (Location × Node) :=
  after.entries.filter fun e => before.node? e.1 ≠ some e.2

/-- Something stands at the location, and it is a directory. -/
def isDirectoryAt (t : Tree) (at_ : Location) : Bool := t.node? at_ = some .directory

/-- The names of the entries of a directory. -/
def childNames (t : Tree) (at_ : Location) : List String :=
  t.entries.filterMap fun e =>
    match e.1.getLast? with
    | some n => if e.1.dropLast = at_ then some n else none
    | none => none

/-- The longest name that an entry may have, in bytes. -/
def nameLimit : Nat := 255

/-- The longest path that the system takes, in bytes. -/
def pathLimit : Nat := 4095

/-- Follows names from a location, each of which must exist, through directories. -/
def follow (t : Tree) (at_ : Location) : List String → Except Cause Location
  | [] => .ok at_
  | n :: rest =>
    if !t.isDirectoryAt at_ then .error .notDirectory
    else if n = ".." then t.follow at_.dropLast rest
    else if nameLimit < n.utf8ByteSize then .error .nameTooLong
    else if (t.node? (at_ ++ [n])).isNone then .error .noSuchFile
    else t.follow (at_ ++ [n]) rest

/-- The existing place that a path names. -/
def find (t : Tree) (cwd : Location) (p : Path) : Except Cause Location :=
  if pathLimit < p.toString.utf8ByteSize then .error .nameTooLong
  else t.follow (if p.isAbsolute then [] else cwd) p.names

/-- The place that a path names, which need not exist: the directory in which it lies and its last name.  A path
without a last name, or that ends in `..`, names no such place. -/
def slot (t : Tree) (cwd : Location) (p : Path) : Except Cause (Option Location) := do
  if pathLimit < p.toString.utf8ByteSize then throw .nameTooLong
  match p.names.getLast? with
  | none => return none
  | some last =>
    let directory ← t.follow (if p.isAbsolute then [] else cwd) p.names.dropLast
    if !t.isDirectoryAt directory then throw .notDirectory
    else if last = ".." then return none
    else if nameLimit < last.utf8ByteSize then throw .nameTooLong
    else return some (directory ++ [last])

/-- Creates one directory. -/
def makeDirectory (t : Tree) (cwd : Location) (p : Path) : Except Cause Tree := do
  match ← t.slot cwd p with
  | none => throw .alreadyExists
  | some at_ => if (t.node? at_).isSome then throw .alreadyExists else return t.put at_ .directory

/-- Opens a file for writing: an existing file keeps its content, a missing one is created empty. -/
def openFile (t : Tree) (cwd : Location) (p : Path) : Except Cause (Location × Tree) := do
  match ← t.slot cwd p with
  | none => throw .isDirectory
  | some at_ => match t.node? at_ with
    | none => return (at_, t.put at_ (.file ByteArray.empty))
    | some (.file _) => return (at_, t)
    | some .directory => throw .isDirectory

/-- The place that a renamed file is to take. -/
def renameTarget (t : Tree) (cwd : Location) (p : Path) : Except Cause Location := do
  match ← t.slot cwd p with
  | none => throw .busy
  | some at_ => if t.isDirectoryAt at_ then throw .isDirectory else return at_

end Tree

end CrudScaffold.Files
