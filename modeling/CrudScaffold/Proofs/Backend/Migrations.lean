import CrudScaffold.Backend.Migrations
import CrudScaffold.Proofs.Backend.Actions
import CrudScaffold.Proofs.Calendar.Order
import CrudScaffold.Proofs.Files.Names

/-!
# CrudScaffold.Proofs.Backend.Migrations — a new migration takes a place of its own

The search for a stamp passes over the names that stand in the way, one moment at a time, and forgets each name that it
has passed.  That is no loss: a name that begins with an earlier stamp begins with no later one, so the stamp that is
found is free of all the names (`firstFree_free`).
-/

namespace CrudScaffold.Backend

open CrudScaffold.Calendar CrudScaffold.Files CrudScaffold.Text

/-- The moment that is found is the first one or follows it, and no name begins with its stamp.  The induction is on
the names that are left. -/
theorem firstFree_free {taken : List String} {m m' : Moment} (h : firstFree taken m = some m') :
    (m' = m ∨ m.Follows m') ∧ ∀ n ∈ taken, beginsWith m'.stamp n = false := by
  -- one case for each way the search goes on: the names that are in the way of one moment are in the way of no later
  -- one
  induction taken, m using firstFree.induct with
  | case1 taken m hany hnext =>
    rw [firstFree, dif_pos hany, hnext] at h
    cases h
  | case2 taken m hany later hnext ih =>
    rw [firstFree, dif_pos hany, hnext] at h
    obtain ⟨hlater, hfree⟩ := ih h
    have hfollows : m.Follows m' := by
      rcases hlater with rfl | hlater
      · exact Moment.follows_next hnext
      · exact (Moment.follows_next hnext).trans hlater
    refine ⟨Or.inr hfollows, fun n hn => ?_⟩
    by_cases hbegins : beginsWith m.stamp n = true
    · exact Moment.not_beginsWith_of_follows hfollows hbegins
    · exact hfree n (List.mem_filter.2 ⟨hn, by simpa using hbegins⟩)
  | case3 taken m hany =>
    rw [firstFree, dif_neg hany] at h
    cases h
    refine ⟨Or.inl rfl, fun n hn => ?_⟩
    simpa using fun hbegins => hany (List.any_eq_true.2 ⟨n, hn, hbegins⟩)

/-- The moment that is found has a stamp of fixed width, if the first one has. -/
theorem firstFree_stampable {taken : List String} {m m' : Moment} (hm : m.Stampable)
    (h : firstFree taken m = some m') : m'.Stampable := by
  induction taken, m using firstFree.induct with
  | case1 taken m hany hnext =>
    rw [firstFree, dif_pos hany, hnext] at h
    cases h
  | case2 taken m hany later hnext ih =>
    rw [firstFree, dif_pos hany, hnext] at h
    exact ih (hm.next hnext) h
  | case3 taken m hany =>
    rw [firstFree, dif_neg hany] at h
    cases h
    exact hm

/-- A search that goes past the end of the calendar has found the stamp of the last moment taken. -/
theorem taken_of_firstFree {taken : List String} {m : Moment} (hm : m.Stampable) (h : firstFree taken m = none) :
    ∃ n ∈ taken, beginsWith Moment.last.stamp n = true := by
  induction taken, m using firstFree.induct with
  | case1 taken m hany hnext =>
    rw [← Moment.eq_last hm.valid hnext]
    exact List.any_eq_true.1 hany
  | case2 taken m hany later hnext ih =>
    rw [firstFree, dif_pos hany, hnext] at h
    obtain ⟨n, hn, hbegins⟩ := ih (hm.next hnext) h
    exact ⟨n, (List.mem_filter.1 hn).1, hbegins⟩
  | case3 taken m hany =>
    rw [firstFree, dif_neg hany] at h
    cases h

/-- The search starts with the reading of the clock, or with the moment after the latest stamp. -/
theorem stampAfter_cases {last : Option Moment} {reading start : Moment} (h : stampAfter last reading = some start) :
    start = reading ∧ (∀ k, last = some k → k.earlier reading = true) ∨ ∃ k, last = some k ∧ k.next = some start := by
  unfold stampAfter at h
  split at h
  · cases h
    refine Or.inl ⟨rfl, ?_⟩
    rintro k ⟨⟩
  · split at h
    · rename_i k hearlier
      cases h
      refine Or.inl ⟨rfl, fun k' hk' => ?_⟩
      cases hk'
      exact hearlier
    · exact Or.inr ⟨_, rfl, h⟩

/-! ### Listings -/

/-- When a listing gives names, and which. -/
theorem namesIn_eq_ok_iff {t : Tree} {cwd : Location} {directory : Path} {names : List String} :
    namesIn t cwd directory = .ok names ↔ directory.hasNul = false ∧
      (t.find cwd directory = .error .noSuchFile ∧ names = [] ∨
        ∃ a, t.find cwd directory = .ok a ∧ t.isDirectoryAt a = true ∧ names = t.childNames a) := by
  unfold namesIn listNames
  by_cases hnul : directory.hasNul = true
  · simp [hnul]
  have hnul : directory.hasNul = false := Bool.eq_false_iff.2 hnul
  simp only [hnul, Bool.false_eq_true, if_false, true_and]
  -- the directory is missing, is there, or is no directory
  cases hfind : t.find cwd directory with
  | error cause =>
    constructor
    · intro h
      cases cause <;> cases h
      exact Or.inl ⟨rfl, rfl⟩
    · rintro (⟨h, rfl⟩ | ⟨a, h, -⟩)
      · cases h
        rfl
      · cases h
  | ok a =>
    by_cases hd : t.isDirectoryAt a = true
    · simp only [hd, if_true]
      constructor
      · rintro ⟨⟩
        exact Or.inr ⟨a, rfl, hd, rfl⟩
      · rintro (⟨h, -⟩ | ⟨_, ⟨⟩, -, rfl⟩)
        · cases h
        · rfl
    · simp only [hd, Bool.false_eq_true, if_false]
      constructor
      · intro h
        cases h
      · rintro (⟨h, -⟩ | ⟨_, ⟨⟩, h, -⟩)
        · cases h
        · exact absurd h hd

/-- The names in a directory are those of its entries, or the directory is missing. -/
theorem namesIn_ok {t : Tree} {cwd : Location} {directory : Path} {names : List String}
    (h : namesIn t cwd directory = .ok names) :
    names = t.childNames (directory.locationFrom cwd) ∨ t.find cwd directory = .error .noSuchFile := by
  obtain ⟨-, ⟨hmissing, -⟩ | ⟨a, ha, -, rfl⟩⟩ := namesIn_eq_ok_iff.1 h
  · exact Or.inr hmissing
  · rw [Tree.location_of_find ha]
    exact Or.inl rfl

/-- A listing of a directory that is found has the name of everything that stands there. -/
theorem mem_names_iff {t : Tree} {cwd : Location} {directory : Path} {names : List String} {n : String} {a : Location}
    (hnames : namesIn t cwd directory = .ok names) (hfind : t.find cwd directory = .ok a) :
    n ∈ names ↔ (t.node? (directory.locationFrom cwd ++ [n])).isSome := by
  obtain ⟨-, ⟨hmissing, -⟩ | ⟨b, hb, -, rfl⟩⟩ := namesIn_eq_ok_iff.1 hnames
  · rw [hmissing] at hfind
    cases hfind
  · rw [Tree.location_of_find hb]
    exact Tree.mem_childNames_iff

/-! ### Names of migrations -/

/-- The place of an entry of the migrations directory. -/
def entryAt (l : Layout) (cwd : Location) (n : String) : Location := (l.directory .migration).locationFrom cwd ++ [n]

/-- The name of a migration's file. -/
def migrationFile (m : Moment) (name : String) : String := m.stamp ++ "_" ++ name ++ ".php"

theorem toList_migrationFile (m : Moment) (name : String) :
    (migrationFile m name).toList = m.stamp.toList ++ '_' :: (name.toList ++ ".php".toList) := by
  simp [migrationFile, String.toList_append]

theorem isName_migrationFile {m : Moment} {name : String} (hname : '/' ∉ name.toList) :
    Path.IsName (migrationFile m name) := by
  have hslash : '/' ∉ (migrationFile m name).toList := by
    rw [toList_migrationFile]
    intro h
    rcases List.mem_append.1 h with h | h
    · rcases Moment.mem_stamp h with h | h
      · exact absurd h (by decide)
      · exact absurd h (by decide)
    rcases List.mem_cons.1 h with h | h
    · exact absurd h (by decide)
    rcases List.mem_append.1 h with h | h
    · exact hname h
    · exact absurd h (by decide)
  -- a name of three characters is none of the special ones
  have hlong : 3 ≤ (migrationFile m name).toList.length := by
    rw [toList_migrationFile]
    simp only [List.length_append, List.length_cons]
    have : ".php".toList.length = 4 := rfl
    omega
  refine ⟨hslash, ?_, ?_, ?_⟩ <;> rintro h <;> rw [h] at hlong <;> exact absurd hlong (by decide)

theorem beginsWith_migrationFile (m : Moment) (name : String) : beginsWith m.stamp (migrationFile m name) = true := by
  rw [beginsWith_iff, toList_migrationFile]
  exact List.prefix_append _ _

theorem slash_notMem_stamp (m : Moment) : '/' ∉ m.stamp.toList := by
  intro h
  rcases Moment.mem_stamp h with h | h
  · exact absurd h (by decide)
  · exact absurd h (by decide)

theorem stamp_ne_nil (m : Moment) : m.stamp.toList ≠ [] := by
  rw [Moment.toList_stamp]
  simp

theorem special_of_stamp {m : Moment} {n : String} (h : m.stamp.toList <+: n.toList) : n ≠ "" ∧ n ≠ "." ∧ n ≠ ".." := by
  have hlong : 3 ≤ m.stamp.toList.length := by
    rw [Moment.toList_stamp]
    simp only [List.length_append, List.length_cons]
    omega
  have hlong := Nat.le_trans hlong h.length_le
  refine ⟨?_, ?_, ?_⟩ <;> rintro rfl <;> exact absurd hlong (by decide)

/-- Whatever a migration is called, its path goes on from the migrations directory with names of which the first one
begins with the stamp. -/
theorem child_migrationFile (directory : Path) (m : Moment) (name : String) : ∃ first rest,
    directory.child (migrationFile m name) = ⟨directory.anchor, directory.names ++ first :: rest⟩ ∧
      m.stamp.toList <+: first.toList := by
  obtain ⟨piece, rest, hcut⟩ := cutAll_append (slash_notMem_stamp m) ('_' :: (name.toList ++ ".php".toList))
  rw [← toList_migrationFile] at hcut
  have hprefix : m.stamp.toList <+: (String.ofList (m.stamp.toList ++ piece)).toList := by
    rw [String.toList_ofList]
    exact List.prefix_append _ _
  obtain ⟨hempty, hdot, -⟩ := special_of_stamp hprefix
  have hrelative : (migrationFile m name).toList.head? ≠ some '/' := by
    intro hslash
    rw [toList_migrationFile, List.head?_append_of_ne_nil _ (stamp_ne_nil m)] at hslash
    exact slash_notMem_stamp m (List.mem_of_head? hslash)
  refine ⟨_, (rest.map String.ofList).filter fun n => n ≠ "" && n ≠ ".", ?_, hprefix⟩
  rw [Path.child_of_relative directory hrelative, Path.namesOf, splitAll, hcut, List.map_cons, List.filter_cons_of_pos]
  exact Bool.and_eq_true_iff.2 ⟨decide_eq_true hempty, decide_eq_true hdot⟩

/-- What is shown of the path from the migrations directory begins with the stamp. -/
theorem shownFrom_migrationFile (directory : Path) (m : Moment) (name : String) :
    m.stamp.toList <+: (directory.shownFrom (directory.child (migrationFile m name))).toList := by
  obtain ⟨first, rest, hchild, hprefix⟩ := child_migrationFile directory m name
  rw [hchild, Path.shownFrom_append _ (List.cons_ne_nil _ _), String.toList_intercalate, List.map_cons]
  by_cases hrest : rest.map String.toList = []
  · rw [hrest, List.intercalate_singleton]
    exact hprefix
  · rw [List.intercalate_cons_of_ne_nil hrest, List.append_assoc]
    exact hprefix.trans (List.prefix_append _ _)

/-- A name without slashes gives one file, and that is what is shown. -/
theorem shownFrom_of_slash_notMem (directory : Path) (m : Moment) {name : String} (h : '/' ∉ name.toList) :
    (directory.child (migrationFile m name)).name = migrationFile m name ∧
      directory.shownFrom (directory.child (migrationFile m name)) = migrationFile m name := by
  have hfile := isName_migrationFile (m := m) h
  rw [Path.child_of_isName directory hfile]
  refine ⟨by simp [Path.name], ?_⟩
  rw [Path.shownFrom_append directory (List.cons_ne_nil _ _)]
  rfl

/-- Nothing is found under the path of a new migration: the directory is missing, or none of its entries begins with
the stamp. -/
theorem not_find_migrationFile {t : Tree} {cwd : Location} {directory : Path} {m : Moment} {names : List String}
    (hnames : namesIn t cwd directory = .ok names) (hfree : ∀ n ∈ names, beginsWith m.stamp n = false) (name : String)
    (at_ : Location) : t.find cwd (directory.child (migrationFile m name)) ≠ .ok at_ := by
  intro hfind
  obtain ⟨first, rest, hchild, hprefix⟩ := child_migrationFile directory m name
  have hstart : (directory.child (migrationFile m name)).start cwd = directory.start cwd := by
    rw [hchild]
    rfl
  -- no name along the way is looked at twice: the last one begins with the stamp, and nothing listed does
  have hfollow := (Tree.find_ok_iff.1 hfind).2
  rw [hstart, hchild, Tree.follow_append] at hfollow
  cases hd : t.follow (directory.start cwd) directory.names with
  | error cause =>
    rw [hd] at hfollow
    cases hfollow
  | ok d =>
    rw [hd] at hfollow
    simp only [Except.bind, Tree.follow, (special_of_stamp hprefix).2.2, if_false] at hfollow
    split at hfollow
    · cases hfollow
    split at hfollow
    · cases hfollow
    split at hfollow
    · cases hfollow
    rename_i hentry
    have hentry : (t.node? (d ++ [first])).isSome := Option.isSome_iff_ne_none.2 (by simpa using hentry)
    rw [Tree.walk_of_follow hd] at hentry
    rcases namesIn_ok hnames with rfl | hmissing
    · have hbegins := hfree first (Tree.mem_childNames hentry)
      rw [beginsWith_iff.2 hprefix] at hbegins
      cases hbegins
    · unfold Tree.find at hmissing
      split at hmissing
      · cases hmissing
      · rw [show t.follow (directory.start cwd) directory.names = .error .noSuchFile from hmissing] at hd
        cases hd

/-! ### The path of a new migration -/

theorem run_readClock (s : Scene Bench) : readClock.run.run s = (.ok (s.surroundings.clock s.surroundings.readings),
    ⟨{ s.surroundings with readings := s.surroundings.readings + 1 }, s.journal⟩) := rfl

/-- The moment that is chosen for a new migration, in the surroundings as they are then. -/
structure Stamps (l : Layout) (b : Bench) (planned : List String) (m : Moment) : Prop where
  /-- It is later than the latest stamp. -/
  later : ∀ k, b.lastStamp = some k → k.earlier m = true
  /-- No name in the migrations directory and none of the planned ones begins with its stamp. -/
  free : ∃ names, namesIn b.tree b.cwd (l.directory .migration) = .ok names ∧
    ∀ n ∈ names ++ planned, beginsWith m.stamp n = false
  stampable : (b.clock b.readings).Stampable → (∀ k, b.lastStamp = some k → k.Stampable) → m.Stampable

theorem stamps_of_firstFree {l : Layout} {b : Bench} {planned names : List String} {start m : Moment}
    (hstart : stampAfter b.lastStamp (b.clock b.readings) = some start)
    (hnames : namesIn b.tree b.cwd (l.directory .migration) = .ok names)
    (hfree : firstFree (names ++ planned) start = some m) : Stamps l b planned m := by
  obtain ⟨hlater, hnone⟩ := firstFree_free hfree
  have hearlier : ∀ k : Moment, k.earlier start = true → k.earlier m = true := by
    intro k hk
    rcases hlater with rfl | hfollows
    · exact hk
    · exact Moment.earlier_trans hk hfollows.1
  -- the latest stamp is before the start of the search, and the start is stampable
  refine ⟨fun k hk => hearlier k ?_, ⟨names, hnames, hnone⟩, fun hclock hlast => firstFree_stampable ?_ hfree⟩
  · rcases stampAfter_cases hstart with ⟨rfl, hreading⟩ | ⟨k', hk', hnext⟩
    · exact hreading k hk
    · rw [hk'] at hk
      cases hk
      exact (Moment.follows_next hnext).1
  · rcases stampAfter_cases hstart with ⟨rfl, -⟩ | ⟨k, hk, hnext⟩
    · exact hclock
    · exact (hlast k hk).next hnext

/-- The moment that a new migration takes, in the surroundings as they are. -/
def momentIn (l : Layout) (b : Bench) (planned : List String) : Except Fault Moment :=
  match stampAfter b.lastStamp (b.clock b.readings) with
  | none => .error (.crash .endOfCalendar)
  | some start =>
    match namesIn b.tree b.cwd (l.directory .migration) with
    | .error f => .error (Act.reported (.unlisted (l.directory .migration)) f)
    | .ok names =>
      match firstFree (names ++ planned) start with
      | none => .error (.crash .endOfCalendar)
      | some m => .ok m

theorem momentIn_ok {l : Layout} {b : Bench} {planned : List String} {m : Moment} (h : momentIn l b planned = .ok m) :
    ∃ start names, stampAfter b.lastStamp (b.clock b.readings) = some start ∧
      namesIn b.tree b.cwd (l.directory .migration) = .ok names ∧ firstFree (names ++ planned) start = some m := by
  unfold momentIn at h
  split at h
  · cases h
  rename_i start hstart
  split at h
  · cases h
  rename_i names hnames
  split at h
  · cases h
  rename_i m' hfree
  obtain rfl := Except.ok.inj h
  exact ⟨start, names, hstart, hnames, hfree⟩

/-- A new migration reads the clock once.  It fails, or it is given a path in the migrations directory and its moment
is remembered; nothing is written yet. -/
theorem run_newMigrationPath_eq (l : Layout) (planned : List String) (name : String) (s : Scene Bench) :
    (newMigrationPath l planned name).run.run s = match momentIn l s.surroundings planned with
      | .error f => (.error f, ⟨{ s.surroundings with readings := s.surroundings.readings + 1 }, s.journal⟩)
      | .ok m => (.ok ((l.directory .migration).child (migrationFile m name)),
          ⟨{ s.surroundings with readings := s.surroundings.readings + 1, lastStamp := some m }, s.journal⟩) := by
  obtain ⟨b, journal⟩ := s
  simp only [newMigrationPath, momentIn, run_bind, run_readClock, Act.run_look]
  cases stampAfter b.lastStamp (b.clock b.readings) with
  | none => rfl
  | some start =>
    simp only [takenNames, run_bind, Act.run_look, Act.run_report]
    cases namesIn b.tree b.cwd (l.directory .migration) with
    | error f => rfl
    | ok names =>
      simp only [Act.mapError_ok]
      cases firstFree (names ++ planned) start <;> rfl

/-- The moment of a new migration suits the surroundings. -/
theorem run_newMigrationPath_cases (l : Layout) (planned : List String) (name : String) (s : Scene Bench) :
    (∃ f, (newMigrationPath l planned name).run.run s =
      (.error f, ⟨{ s.surroundings with readings := s.surroundings.readings + 1 }, s.journal⟩)) ∨
    ∃ m, Stamps l s.surroundings planned m ∧ (newMigrationPath l planned name).run.run s =
      (.ok ((l.directory .migration).child (migrationFile m name)),
        ⟨{ s.surroundings with readings := s.surroundings.readings + 1, lastStamp := some m }, s.journal⟩) := by
  rw [run_newMigrationPath_eq]
  cases hm : momentIn l s.surroundings planned with
  | error f => exact Or.inl ⟨f, rfl⟩
  | ok m =>
    obtain ⟨start, names, hstart, hnames, hfree⟩ := momentIn_ok hm
    exact Or.inr ⟨m, stamps_of_firstFree hstart hnames hfree, rfl⟩

/-- A new migration is given a path in the migrations directory, whose stamp no file there begins with; nothing is
written yet. -/
theorem run_newMigrationPath (l : Layout) (name : String) (s : Scene Bench) :
    ∃ r s', (newMigrationPath l [] name).run.run s = (r, s') ∧ s'.surroundings.tree = s.surroundings.tree ∧
      s'.surroundings.cwd = s.surroundings.cwd ∧ ∀ p, r = .ok p → ∃ m names,
        p = (l.directory .migration).child (migrationFile m name) ∧
        namesIn s.surroundings.tree s.surroundings.cwd (l.directory .migration) = .ok names ∧
        ∀ n ∈ names, beginsWith m.stamp n = false := by
  rcases run_newMigrationPath_cases l [] name s with ⟨f, hrun⟩ | ⟨m, hstamps, hrun⟩
  · exact ⟨_, _, hrun, rfl, rfl, nofun⟩
  · refine ⟨_, _, hrun, rfl, rfl, fun p hp => ?_⟩
    obtain rfl := Except.ok.inj hp
    obtain ⟨names, hnames, hfree⟩ := hstamps.free
    rw [List.append_nil] at hfree
    exact ⟨m, names, rfl, hnames, hfree⟩

end CrudScaffold.Backend
