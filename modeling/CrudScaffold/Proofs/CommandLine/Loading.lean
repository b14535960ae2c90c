import CrudScaffold.Proofs.CommandLine.Exit
import CrudScaffold.Proofs.SettingsFile

/-!
# CrudScaffold.Proofs.CommandLine.Loading — what the command does with a settings file that it cannot use

The settings file is read before anything else, so whatever is wrong with it decides the run: a fault that is reported
becomes the code 4, and one that is let through ends the command without a code (`run_of_loadGenerator_error`).
-/

namespace CrudScaffold.CommandLine

open CrudScaffold.Backend CrudScaffold.Calendar CrudScaffold.Files CrudScaffold.Generation CrudScaffold.Settings
open CrudScaffold.Text

variable {host : Host} {started : Moment} {b : Bench} {words : List String} {o : Options}

theorem run_of_parse (started : Moment) (b : Bench) (h : parse host.edition words = .ok o) : run host started b words =
    ⟨((execute host started o).run.run ⟨b, []⟩).1, threshold o, ((execute host started o).run.run ⟨b, []⟩).2.events,
      ((execute host started o).run.run ⟨b, []⟩).2.bench⟩ := by
  rcases hexecute : (execute host started o).run.run ⟨b, []⟩ with ⟨status, d⟩
  simp only [run, h, hexecute]

theorem loadGenerator_of_file {file : String} {fault : Fault} (hconfig : Options.nonEmpty o.config = some file)
    (h : fileEntries host.readers b.tree b.cwd (Path.ofString file) = .error fault) :
    loadGenerator host o b = .error fault := by
  simp only [loadGenerator, loadSettings, Settings.load, hconfig, Option.map_some, h, bind, Except.bind]

/-- Without settings the command ends at once: a failure gives its code, and any other fault is let through. -/
theorem run_of_loadGenerator_error (started : Moment) {fault : Fault} (h : parse host.edition words = .ok o)
    (hload : loadGenerator host o b = .error fault) : (run host started b words).bench = b ∧
      (run host started b words).status = match fault with
        | .failure f => .ok f.exitCode
        | .crash c => .error (.crash c) := by
  have hexecute : (execute host started o).run.run ⟨b, []⟩ = match fault with
      | .failure f => (failWith f).run.run ⟨b, []⟩
      | .crash c => (.error (.crash c), ⟨b, []⟩) := by
    rw [execute, run_bind, run_get]
    simp only [hload]
    cases fault <;> rfl
  rw [run_of_parse started b h, hexecute]
  cases fault with
  | failure f =>
    obtain ⟨events, hrun⟩ := shows_failWith f ⟨b, []⟩
    simp only [hrun, and_self]
  | crash c => exact ⟨rfl, rfl⟩

/-- **A settings file is either used, or reported with its path and the code 4, unless one of four faults is let
through**: the path is too long, the bytes are no text, something in the text stands for no value, or the reader stops
with something that is no error of its own.  In JSON the third is a whole number of more digits than are allowed or a list
or map that is nested too deep, and there is no fourth.  This holds for every reader of YAML. -/
theorem settings_file_outcome (host : Host) (b : Bench) (path : Path) :
    (∀ c, fileEntries host.readers b.tree b.cwd path = .error (.crash c) ↔
      Unreported host.readers b.tree b.cwd path c) ∧
    ((∀ c, ¬ Unreported host.readers b.tree b.cwd path c) →
      (∃ entries, fileEntries host.readers b.tree b.cwd path = .ok entries) ∨
      ∃ fault : SettingsFault, fileEntries host.readers b.tree b.cwd path = .error (.failure (.settings fault)) ∧
        fault.path? = some path) ∧
    (∀ fault, Unreported host.readers b.tree b.cwd path (.value fault) → isJson path = true →
      ∃ s : String, look b.tree b.cwd path = .ok (some (.file s.toUTF8)) ∧
        (Json.Excess (unifyLineEnds s.toList) fault ∨
          Json.TooDeep host.readers.nesting (unifyLineEnds s.toList) fault)) ∧
    (∀ x, isJson path = true → ¬ Unreported host.readers b.tree b.cwd path (.foreign x)) ∧
    ∀ started words o file, parse host.edition words = .ok o → Options.nonEmpty o.config = some file →
      Path.ofString file = path →
      (∀ fault : SettingsFault, fileEntries host.readers b.tree b.cwd path = .error (.failure (.settings fault)) →
        (run host started b words).status = .ok 4 ∧ (run host started b words).bench = b) ∧
      ∀ c, Unreported host.readers b.tree b.cwd path c → (run host started b words).status = .error (.crash c) := by
  refine ⟨fun c => fileEntries_crash_iff, fun hnone => ?_, fun fault h hjson => h.excess_or_tooDeep hjson,
    fun x hjson => not_unreported_foreign hjson x, ?_⟩
  · exact (reported_or_unreported host.readers b.tree b.cwd path).resolve_right fun ⟨c, hc⟩ => hnone c hc
  · rintro started words o file hparse hconfig rfl
    refine ⟨fun fault hfault => ?_, fun c hc => ?_⟩
    · obtain ⟨hbench, hstatus⟩ := run_of_loadGenerator_error started hparse (loadGenerator_of_file hconfig hfault)
      exact ⟨hstatus, hbench⟩
    · exact (run_of_loadGenerator_error started hparse (loadGenerator_of_file hconfig hc.outcome)).2

/-- A command whose settings file is to be `file`. -/
def configuredBy (file : String) : List String := ["Post", "--fields", "title:string", "--config", file]

theorem exists_of_parse {α : Type} {f : Options → α} {a : α} (e : Edition) (words : List String)
    (h : (parse e words).map f = .ok a) : ∃ o, parse e words = .ok o ∧ f o = a := by
  cases hparse : parse e words with
  | error stop =>
    rw [hparse] at h
    cases h
  | ok o =>
    rw [hparse] at h
    exact ⟨o, rfl, Except.ok.inj h⟩

/-- A directory is no settings file: the command reports it with the code 4. -/
theorem settings_file_outcome_directory :
    (run Host.standard ⟨2024, 1, 1, 0⟩ (sessionOn postTree).surroundings (configuredBy "app")).status = .ok 4 := by
  obtain ⟨o, ho, hconfig⟩ := exists_of_parse Host.standard.edition (configuredBy "app")
    (f := fun o => Options.nonEmpty o.config) (a := some "app") (by decide)
  have hfault : fileEntries Host.standard.readers postTree [] (Path.ofString "app") =
      .error (.failure (.settings (.notAFile (Path.ofString "app")))) := by rfl
  obtain ⟨-, -, -, -, hrun⟩ := settings_file_outcome .standard (sessionOn postTree).surroundings (Path.ofString "app")
  exact ((hrun _ _ o "app" ho hconfig rfl).1 _ hfault).1

/-- A project with a settings file whose one byte starts no character. -/
def garbledSettings : Tree := Tree.empty.put ["c.json"] (.file ⟨#[0xff]⟩)

/-- A settings file that is no text is not reported, and the command ends without a code. -/
theorem not_settings_file_reported :
    (¬ ∃ fault : SettingsFault,
      fileEntries Host.standard.readers garbledSettings [] (Path.ofString "c.json") =
        .error (.failure (.settings fault))) ∧
    (¬ ∃ entries, fileEntries Host.standard.readers garbledSettings [] (Path.ofString "c.json") = .ok entries) ∧
    ∀ code, (run Host.standard ⟨2024, 1, 1, 0⟩ (sessionOn garbledSettings).surroundings
      (configuredBy "c.json")).status ≠ .ok code := by
  have hcrash : ∃ c,
      fileEntries Host.standard.readers garbledSettings [] (Path.ofString "c.json") = .error (.crash c) :=
    ⟨_, Unreported.outcome (.notText rfl (decode_error_iff.1 ⟨_, rfl⟩) rfl)⟩
  obtain ⟨c, hc⟩ := hcrash
  rw [hc]
  refine ⟨nofun, nofun, fun code => ?_⟩
  obtain ⟨o, ho, hconfig⟩ := exists_of_parse Host.standard.edition (configuredBy "c.json")
    (f := fun o => Options.nonEmpty o.config) (a := some "c.json") (by decide)
  have hload : loadGenerator Host.standard o (sessionOn garbledSettings).surroundings = .error (.crash c) :=
    loadGenerator_of_file hconfig hc
  rw [(run_of_loadGenerator_error _ ho hload).2]
  exact nofun

end CrudScaffold.CommandLine
