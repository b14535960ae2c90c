import CrudScaffold.Proofs.Backend.Commands
import CrudScaffold.Proofs.Backend.Planning
import CrudScaffold.Proofs.Calendar.Succession

/-!
# CrudScaffold.Proofs.Backend.LeastStamps — a new migration takes the first second that is left

`Search taken steps start m` is the loop over the seconds: it looks at all of the names in each step, goes on from a
moment whose stamp is taken, and stops at one whose stamp is free.  One step keeps every moment that could still be
chosen, so the loop stops at the least of them (`Search.least`).  It makes at most as many steps as there are names,
since no name stands in the way of two moments (`search_of_firstFree`).  With the bump past the latest stamp in front
of it, the loop finds the least moment that `Suits` (`least_stamp`).
-/

namespace CrudScaffold.Backend

open CrudScaffold.Calendar CrudScaffold.Files CrudScaffold.Text

/-! ## Definitions -/

/-- The moments under which a new migration may be filed: not before the reading of the clock, later than the latest
stamp, and with a stamp that none of the names begins with. -/
structure Suits (reading : Moment) (latest : Option Moment) (taken : List String) (m : Moment) : Prop where
  valid : m.isValid = true
  notBefore : reading.NotBefore m
  later : ∀ k, latest = some k → k.earlier m = true
  free : ∀ n ∈ taken, beginsWith m.stamp n = false

/-- `m` is the first of the moments with a property. -/
def IsFirst (P : Moment → Prop) (m : Moment) : Prop := P m ∧ ∀ x, P x → m.NotBefore x

/-- The loop goes from `start` to `m` in so many steps: it leaves each moment on whose stamp a name begins, and stops at
the first other one. -/
inductive Search (taken : List String) : Nat → Moment → Moment → Prop
  | stop {m : Moment} (hfree : taken.any (beginsWith m.stamp) = false) : Search taken 0 m m
  | step {steps : Nat} {start later m : Moment} (htaken : taken.any (beginsWith start.stamp) = true)
      (hnext : start.next = some later) (hrest : Search taken steps later m) : Search taken (steps + 1) start m

variable {taken : List String} {steps : Nat} {start m x : Moment}

theorem any_eq_false_iff : taken.any (beginsWith m.stamp) = false ↔ ∀ n ∈ taken, beginsWith m.stamp n = false := by
  simp only [List.any_eq_false, Bool.not_eq_true]

/-! ## The loop -/

/-- A loop that has forgotten the names that it has passed goes on as if it had not. -/
theorem Search.of_besides {passed : Moment} (h : Search (besides passed taken) steps start m)
    (hpassed : passed.Follows start) : Search taken steps start m := by
  induction h with
  | stop hfree =>
    rw [any_besides hpassed] at hfree
    exact .stop hfree
  | step htaken hnext _ ih =>
    rw [any_besides hpassed] at htaken
    exact .step htaken hnext (ih (hpassed.trans (Moment.follows_next hnext)))

/-- What is found is found by the loop, which makes at most as many steps as there are names: each step uses up one
of them.  The induction is on the names that are left. -/
theorem search_of_firstFree (h : firstFree taken start = some m) :
    ∃ steps, steps ≤ taken.length ∧ Search taken steps start m := by
  induction taken, start using firstFree.induct with
  | case1 taken start hany hnext =>
    rw [firstFree, dif_pos hany, hnext] at h
    cases h
  | case2 taken start hany later hnext ih =>
    rw [firstFree, dif_pos hany, hnext] at h
    obtain ⟨steps, hsteps, hsearch⟩ := ih h
    have hfewer := length_besides_lt hany
    exact ⟨steps + 1, by omega, .step hany hnext (hsearch.of_besides (Moment.follows_next hnext))⟩
  | case3 taken start hany =>
    rw [firstFree, dif_neg hany] at h
    cases h
    exact ⟨0, Nat.zero_le _, .stop (Bool.eq_false_iff.2 hany)⟩

theorem notBefore_next {later : Moment} (hstart : start.isValid = true) (hx : x.isValid = true)
    (hle : start.NotBefore x) (hfree : ∀ n ∈ taken, beginsWith x.stamp n = false)
    (htaken : taken.any (beginsWith start.stamp) = true) (hnext : start.next = some later) : later.NotBefore x := by
  rcases hle with rfl | hearlier
  · rw [any_eq_false_iff.2 hfree] at htaken
    cases htaken
  · obtain ⟨m, hm, hmx⟩ := Moment.next_of_earlier hstart hx hearlier
    rw [hnext] at hm
    cases hm
    exact hmx

/-- **The loop stops at the first free moment.** -/
theorem Search.least (h : Search taken steps start m) (hstart : start.isValid = true) :
    IsFirst (fun x => x.isValid = true ∧ start.NotBefore x ∧ ∀ n ∈ taken, beginsWith x.stamp n = false) m := by
  induction h with
  | stop hfree => exact ⟨⟨hstart, Or.inl rfl, any_eq_false_iff.1 hfree⟩, fun x hx => hx.2.1⟩
  | step htaken hnext _ ih =>
    obtain ⟨⟨hvalid, hlater, hfree⟩, hleast⟩ := ih (Moment.isValid_next hstart hnext).1
    have hfollows := Moment.follows_next hnext
    refine ⟨⟨hvalid, Moment.NotBefore.trans (Or.inr hfollows.1) hlater, hfree⟩, ?_⟩
    intro x ⟨hx, hle, hxfree⟩
    exact hleast x ⟨hx, notBefore_next hstart hx hle hxfree htaken hnext, hxfree⟩

/-- The loop runs into the end of the calendar only if no free moment is ahead. -/
theorem exists_firstFree (hstart : start.isValid = true) (hx : x.isValid = true) (hle : start.NotBefore x)
    (hfree : ∀ n ∈ taken, beginsWith x.stamp n = false) : ∃ m, firstFree taken start = some m := by
  -- along the search `x` stays ahead of the moments that are taken
  induction taken, start using firstFree.induct with
  | case1 taken start hany hnext =>
    -- nothing follows the last moment, but `x` would
    exfalso
    rcases hle with rfl | hearlier
    · rw [any_eq_false_iff.2 hfree] at hany
      cases hany
    · obtain ⟨m, hm, -⟩ := Moment.next_of_earlier hstart hx hearlier
      rw [hnext] at hm
      cases hm
  | case2 taken start hany later hnext ih =>
    have hahead := notBefore_next hstart hx hle hfree hany hnext
    obtain ⟨m, hm⟩ := ih (Moment.isValid_next hstart hnext).1 hahead fun n hn => hfree n (List.mem_filter.1 hn).1
    refine ⟨m, ?_⟩
    rw [firstFree, dif_pos hany, hnext]
    exact hm
  | case3 taken start hany =>
    refine ⟨start, ?_⟩
    rw [firstFree, dif_neg hany]

/-! ## The bump past the latest stamp -/

section Bump

variable {reading : Moment} {latest : Option Moment}

/-- The search starts at the first moment that is not before the reading and later than the latest stamp. -/
theorem isFirst_stampAfter (hreading : reading.isValid = true) (hlatest : ∀ k, latest = some k → k.isValid = true)
    (h : stampAfter latest reading = some start) : IsFirst (Suits reading latest []) start := by
  cases latest with
  | none =>
    cases h
    exact ⟨⟨hreading, Or.inl rfl, nofun, nofun⟩, fun x hx => hx.notBefore⟩
  | some k =>
    -- the reading, unless the latest stamp has caught up with it
    rw [stampAfter] at h
    by_cases hearlier : k.earlier reading = true
    · rw [if_pos hearlier] at h
      obtain rfl := Option.some.inj h
      have hlater : ∀ k', some k = some k' → k'.earlier reading = true := by
        rintro _ ⟨⟩
        exact hearlier
      exact ⟨⟨hreading, Or.inl rfl, hlater, nofun⟩, fun x hx => hx.notBefore⟩
    · rw [if_neg hearlier] at h
      have hk := hlatest k rfl
      have hfollows := Moment.follows_next h
      have hnotBefore : reading.NotBefore start :=
        ((Moment.notBefore_or_earlier reading k).resolve_right hearlier).trans (Or.inr hfollows.1)
      have hlater : ∀ k', some k = some k' → k'.earlier start = true := by
        rintro _ ⟨⟩
        exact hfollows.1
      refine ⟨⟨(Moment.isValid_next hk h).1, hnotBefore, hlater, nofun⟩, ?_⟩
      intro x hx
      obtain ⟨m, hm, hmx⟩ := Moment.next_of_earlier hk hx.valid (hx.later k rfl)
      rw [h] at hm
      cases hm
      exact hmx

theorem exists_stampAfter (hlatest : ∀ k, latest = some k → k.isValid = true) (hx : Suits reading latest taken x) :
    ∃ start, stampAfter latest reading = some start := by
  cases latest with
  | none => exact ⟨reading, rfl⟩
  | some k =>
    rw [stampAfter]
    split
    · exact ⟨reading, rfl⟩
    · obtain ⟨m, hm, -⟩ := Moment.next_of_earlier (hlatest k rfl) hx.valid (hx.later k rfl)
      exact ⟨m, hm⟩

theorem suits_iff (hstart : IsFirst (Suits reading latest []) start) : Suits reading latest taken x ↔
    x.isValid = true ∧ start.NotBefore x ∧ ∀ n ∈ taken, beginsWith x.stamp n = false := by
  constructor
  · intro h
    exact ⟨h.valid, hstart.2 x ⟨h.valid, h.notBefore, h.later, nofun⟩, h.free⟩
  · rintro ⟨hvalid, hle, hfree⟩
    refine ⟨hvalid, hstart.1.notBefore.trans hle, fun k hk => ?_, hfree⟩
    exact Moment.earlier_of_notBefore (hstart.1.later k hk) hle

end Bump

/-! ## A new migration -/

/-- **A new migration takes the first second that is left.**  It reads the clock once.  If any moment of the calendar
suits, the search starts at the first one past the reading and the latest stamp, makes at most as many steps as there
are names, and stops at the first moment that suits: the path has its stamp, and it is the latest stamp from then on.
Otherwise the calendar is at its end, and the latest stamp stays. -/
theorem least_stamp (l : Layout) (planned : List String) (name : String) (s : Scene Bench) {names : List String}
    {reading : Moment} (hclock : s.surroundings.clock s.surroundings.readings = reading)
    (hreading : reading.isValid = true) (hlatest : ∀ k, s.surroundings.lastStamp = some k → k.isValid = true)
    (hnames : namesIn s.surroundings.tree s.surroundings.cwd (l.directory .migration) = .ok names) :
    ((∃ m, Suits reading s.surroundings.lastStamp (names ++ planned) m) → ∃ start steps m,
      IsFirst (Suits reading s.surroundings.lastStamp []) start ∧
      Search (names ++ planned) steps start m ∧ steps ≤ (names ++ planned).length ∧
      IsFirst (Suits reading s.surroundings.lastStamp (names ++ planned)) m ∧
      (newMigrationPath l planned name).run.run s =
        (.ok ((l.directory .migration).child (m.stamp ++ "_" ++ name ++ ".php")),
          ⟨{ s.surroundings with readings := s.surroundings.readings + 1, lastStamp := some m }, s.journal⟩)) ∧
    ((¬ ∃ m, Suits reading s.surroundings.lastStamp (names ++ planned) m) →
      (newMigrationPath l planned name).run.run s = (.error (.crash .endOfCalendar),
        ⟨{ s.surroundings with readings := s.surroundings.readings + 1 }, s.journal⟩)) := by
  have hrun := run_newMigrationPath_eq l planned name s
  simp only [momentIn, hclock, hnames] at hrun
  constructor
  · rintro ⟨x, hx⟩
    -- the search starts at the least moment that suits without the taken ones, so `x` is not before it
    obtain ⟨start, hstart⟩ := exists_stampAfter hlatest hx
    have hfirst := isFirst_stampAfter hreading hlatest hstart
    have hvalid := hfirst.1.valid
    obtain ⟨hxvalid, hle, hxfree⟩ := (suits_iff hfirst).1 hx
    obtain ⟨m, hm⟩ := exists_firstFree hvalid hxvalid hle hxfree
    obtain ⟨steps, hsteps, hsearch⟩ := search_of_firstFree hm
    obtain ⟨hfound, hleast⟩ := hsearch.least hvalid
    simp only [hstart, hm] at hrun
    refine ⟨start, steps, m, hfirst, hsearch, hsteps, ⟨(suits_iff hfirst).2 hfound, ?_⟩, hrun⟩
    intro y hy
    exact hleast y ((suits_iff hfirst).1 hy)
  · -- without a free moment ahead the start, or the search, runs into the end of the calendar
    intro hnone
    cases hstart : stampAfter s.surroundings.lastStamp reading with
    | none =>
      simp only [hstart] at hrun
      exact hrun
    | some start =>
      have hfirst := isFirst_stampAfter hreading hlatest hstart
      cases hm : firstFree (names ++ planned) start with
      | none =>
        simp only [hstart, hm] at hrun
        exact hrun
      | some m =>
        obtain ⟨steps, -, hsearch⟩ := search_of_firstFree hm
        exact absurd ⟨m, (suits_iff hfirst).2 (hsearch.least hfirst.1.valid).1⟩ hnone

/-- The moment two seconds before a leap day. -/
def februaryEnd : Moment := ⟨2024, 2, 28, 86398⟩

/-- A project in which the last second before the leap day is taken, and the latest stamp is as late as the clock. -/
def februaryScene : Scene Bench :=
  ⟨⟨⟨[(["database"], .directory), (["database", "migrations"], .directory),
      (["database", "migrations", "2024_02_28_235959_create_users_table.php"], .file ByteArray.empty)]⟩,
    [], fun _ => februaryEnd, 0, fun _ _ t => (.timedOut, t), [], some februaryEnd, []⟩, []⟩

/-- The search is carried into the leap day, where midnight is taken by a planned migration. -/
theorem least_stamp_leapDay :
    namesIn februaryScene.surroundings.tree [] (topLayout.directory .migration) =
      .ok ["2024_02_28_235959_create_users_table.php"] ∧
    februaryEnd.isValid = true ∧
    Suits februaryEnd (some februaryEnd)
      ["2024_02_28_235959_create_users_table.php", "2024_02_29_000000_create_posts_table.php"] ⟨2024, 2, 29, 1⟩ ∧
    ∃ start steps m, IsFirst (Suits februaryEnd (some februaryEnd) []) start ∧
      Search ["2024_02_28_235959_create_users_table.php", "2024_02_29_000000_create_posts_table.php"] steps start m ∧
      steps ≤ 2 ∧
      IsFirst (Suits februaryEnd (some februaryEnd)
        ["2024_02_28_235959_create_users_table.php", "2024_02_29_000000_create_posts_table.php"]) m ∧
      ((newMigrationPath topLayout ["2024_02_29_000000_create_posts_table.php"] "create_tags_table").run.run
        februaryScene).1 =
        .ok ((topLayout.directory .migration).child (m.stamp ++ "_" ++ "create_tags_table" ++ ".php")) := by
  have hnames : namesIn februaryScene.surroundings.tree [] (topLayout.directory .migration) =
      .ok ["2024_02_28_235959_create_users_table.php"] := by decide
  have hvalid : februaryEnd.isValid = true := by decide
  have hlatest : ∀ k, some februaryEnd = some k → k.isValid = true := by
    rintro _ ⟨⟩
    exact hvalid
  have hlater : ∀ k, some februaryEnd = some k → k.earlier ⟨2024, 2, 29, 1⟩ = true := by
    rintro _ ⟨⟩
    decide
  have hsuits : Suits februaryEnd (some februaryEnd)
      ["2024_02_28_235959_create_users_table.php", "2024_02_29_000000_create_posts_table.php"] ⟨2024, 2, 29, 1⟩ :=
    ⟨by decide, Or.inr (by decide), hlater, by decide⟩
  obtain ⟨start, steps, m, hstart, hsearch, hsteps, hfirst, hrun⟩ := (least_stamp topLayout
    ["2024_02_29_000000_create_posts_table.php"] "create_tags_table" februaryScene rfl hvalid hlatest hnames).1 ⟨_, hsuits⟩
  exact ⟨hnames, hvalid, hsuits, start, steps, m, hstart, hsearch, hsteps, hfirst, congrArg Prod.fst hrun⟩

end CrudScaffold.Backend
