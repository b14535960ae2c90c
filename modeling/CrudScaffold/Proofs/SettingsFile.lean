import CrudScaffold.Proofs.Files.Reading
import CrudScaffold.Proofs.Json.Limits
import CrudScaffold.Proofs.Runs
import CrudScaffold.SettingsFile

/-!
# CrudScaffold.Proofs.SettingsFile — how the reading of a settings file ends

The reading goes through five steps: the path is looked at, its bytes are taken for text, the text is read as a value,
and the value must be a map whose section is a map.  The last two steps, and a file that is missing or is none, report
what is wrong with the path (`Reported`).  The other three let faults through (`Unreported`): the path may be too long,
the bytes may be no text, and the reader may find something that stands for no value, or stop for another reason.  The
two together decide the outcome (`reported_or_unreported`, `fileEntries_crash_iff`), whatever the reader of YAML does.
-/

namespace CrudScaffold.Settings

open CrudScaffold.Data CrudScaffold.Files CrudScaffold.Text

variable {readers : Readers} {t : Tree} {cwd : Location} {path : Path}

/-- A fault that the reading of a settings file lets through. -/
inductive Unreported (readers : Readers) (t : Tree) (cwd : Location) (path : Path) : Crash → Prop where
  /-- The system cannot look at the path. -/
  | tooLong (hnul : path.hasNul = false) (hfind : t.find cwd path = .error .nameTooLong) :
    Unreported readers t cwd path (.access (refuse .nameTooLong path))
  /-- The bytes of the file are no text. -/
  | notText {content : ByteArray} {f : Utf8.Fault} (hfile : look t cwd path = .ok (some (.file content)))
    (hbytes : ¬ IsText content) (hf : Utf8.decode content = .error f) : Unreported readers t cwd path (.encoding f)
  /-- The text is well-formed, and something in it stands for no value. -/
  | noValue {s : String} {fault : ValueFault} (hfile : look t cwd path = .ok (some (.file s.toUTF8)))
    (hread : readers.reader path (String.ofList (unifyLineEnds s.toList)) = .error (.value fault)) :
    Unreported readers t cwd path (.value fault)
  /-- The reader of the text stops with something that is no error of its own. -/
  | foreign {s : String} {x : Raised} (hfile : look t cwd path = .ok (some (.file s.toUTF8)))
    (hread : readers.reader path (String.ofList (unifyLineEnds s.toList)) = .error (.raised x)) :
    Unreported readers t cwd path (.foreign x)

/-- The outcome is a map of settings or a report of what is wrong with the file. -/
def Reported (path : Path) (outcome : Except Fault Entries) : Prop :=
  (∃ entries, outcome = .ok entries) ∨
    ∃ fault : SettingsFault, outcome = .error (.failure (.settings fault)) ∧ fault.path? = some path

theorem Reported.ok (entries : Entries) : Reported path (.ok entries) := Or.inl ⟨entries, rfl⟩

theorem Reported.fault {fault : SettingsFault} (h : fault.path? = some path) :
    Reported path (.error (.failure (.settings fault))) := Or.inr ⟨fault, rfl, h⟩

theorem Reported.ne_crash {outcome : Except Fault Entries} (h : Reported path outcome) (c : Crash) :
    outcome ≠ .error (.crash c) := by
  rcases h with ⟨entries, rfl⟩ | ⟨fault, rfl, -⟩
  · exact nofun
  · exact nofun

/-! ### The steps -/

theorem reported_sectionOf (entries : Entries) (keys : List String) : Reported path (sectionOf path entries keys) := by
  induction keys with
  | nil => exact .ok entries
  | cons key keys ih =>
    unfold sectionOf
    split
    · exact .ok _
    · exact .fault rfl
    · exact ih

theorem reported_entriesOf (v : Value) : Reported path (entriesOf path v) := by
  unfold entriesOf
  split
  · exact .ok []
  · exact reported_sectionOf _ _
  · exact .fault rfl

theorem fileText_of_look {content : ByteArray} (h : look t cwd path = .ok (some (.file content))) :
    fileText t cwd path = match Utf8.decode content with
    | .ok s => .ok (String.ofList (unifyLineEnds s.toList))
    | .error f => .error (.crash (.encoding f)) := by
  rw [fileText, readText_of_look h]
  cases Utf8.decode content <;> rfl

theorem fileEntries_of_look {content : ByteArray} (h : look t cwd path = .ok (some (.file content))) :
    fileEntries readers t cwd path = (do
      let text ← fileText t cwd path
      let v ← readValue readers path text
      entriesOf path v) := by
  simp only [fileEntries, pathExists, isFile, h, letThrough, bind, Except.bind, pure, Except.pure]
  rfl

theorem fileEntries_of_text {s : String} (h : look t cwd path = .ok (some (.file s.toUTF8))) :
    fileEntries readers t cwd path =
      (readValue readers path (String.ofList (unifyLineEnds s.toList))).bind (entriesOf path) := by
  rw [fileEntries_of_look h, fileText_of_look h, decode_toUTF8]
  simp only [bind, Except.bind]

/-! ### The outcome -/

theorem reported_of_look {seen : Option Node} (h : look t cwd path = .ok seen)
    (hseen : ∀ content, seen ≠ some (.file content)) : Reported path (fileEntries readers t cwd path) := by
  rcases seen with _ | _ | content
  · have hmissing : fileEntries readers t cwd path = .error (.failure (.settings (.missingFile path))) := by
      simp only [fileEntries, pathExists, h, letThrough, bind, Except.bind, pure, Except.pure]
      rfl
    exact hmissing ▸ .fault rfl
  · have hdirectory : fileEntries readers t cwd path = .error (.failure (.settings (.notAFile path))) := by
      simp only [fileEntries, pathExists, isFile, h, letThrough, bind, Except.bind, pure, Except.pure]
      rfl
    exact hdirectory ▸ .fault rfl
  · exact absurd rfl (hseen content)

/-- Each of the four faults ends the reading. -/
theorem Unreported.outcome {c : Crash} (h : Unreported readers t cwd path c) :
    fileEntries readers t cwd path = .error (.crash c) := by
  cases h with
  | tooLong hnul hfind =>
    simp only [fileEntries, pathExists, look_error_iff.2 ⟨hnul, hfind, rfl⟩, letThrough, bind, Except.bind]
  | notText hfile hbytes hf =>
    rw [fileEntries_of_look hfile, fileText_of_look hfile, hf]
    rfl
  | noValue hfile hread =>
    rw [fileEntries_of_text hfile, readValue, hread]
    simp only [Except.bind]
  | foreign hfile hread =>
    rw [fileEntries_of_text hfile, readValue, hread]
    simp only [Except.bind]

/-- A settings file gives its settings or is reported, unless one of the four faults is let through. -/
theorem reported_or_unreported (readers : Readers) (t : Tree) (cwd : Location) (path : Path) :
    Reported path (fileEntries readers t cwd path) ∨ ∃ c, Unreported readers t cwd path c := by
  cases hlook : look t cwd path with
  | error f =>
    obtain ⟨hnul, hfind, -⟩ := look_error_iff.1 hlook
    exact Or.inr ⟨_, .tooLong hnul hfind⟩
  | ok seen =>
    -- only a file is read; anything else is reported by the look
    by_cases hfile : ∃ content, seen = some (.file content)
    · obtain ⟨content, rfl⟩ := hfile
      cases hdecode : Utf8.decode content with
      | error f => exact Or.inr ⟨_, .notText hlook (decode_error_iff.1 ⟨f, hdecode⟩) hdecode⟩
      | ok s =>
        obtain rfl := decode_ok_iff.1 hdecode
        rw [fileEntries_of_text hlook, readValue]
        -- the text has a value, or the reader tells why not
        cases hread : readers.reader path (String.ofList (unifyLineEnds s.toList)) with
        | ok v => exact Or.inl (reported_entriesOf v)
        | error e =>
          cases e with
          | value fault => exact Or.inr ⟨_, .noValue hlook hread⟩
          | raised x => exact Or.inr ⟨_, .foreign hlook hread⟩
          | malformed =>
            refine Or.inl (.fault ?_)
            split <;> rfl
    · exact Or.inl (reported_of_look hlook fun content heq => hfile ⟨content, heq⟩)

theorem fileEntries_crash_iff {c : Crash} :
    fileEntries readers t cwd path = .error (.crash c) ↔ Unreported readers t cwd path c := by
  refine ⟨fun h => ?_, Unreported.outcome⟩
  rcases reported_or_unreported readers t cwd path with hreported | ⟨c', hc'⟩
  · exact absurd h (hreported.ne_crash c)
  · cases hc'.outcome.symm.trans h
    exact hc'

theorem reader_of_isJson (readers : Readers) (hjson : isJson path = true) :
    readers.reader path = Json.read readers.nesting := if_pos hjson

/-- In JSON a whole number with too many digits stands for no value, and so does what opens too many lists and maps. -/
theorem Unreported.excess_or_tooDeep {fault : ValueFault} (h : Unreported readers t cwd path (.value fault))
    (hjson : isJson path = true) : ∃ s : String, look t cwd path = .ok (some (.file s.toUTF8)) ∧
      (Json.Excess (unifyLineEnds s.toList) fault ∨ Json.TooDeep readers.nesting (unifyLineEnds s.toList) fault) := by
  cases h with
  | noValue hfile hread =>
    rw [reader_of_isJson readers hjson] at hread
    exact ⟨_, hfile, by simpa using Json.excess_or_tooDeep_of_read hread⟩

/-- The reader of JSON lets no other fault through. -/
theorem not_unreported_foreign (hjson : isJson path = true) (x : Raised) :
    ¬ Unreported readers t cwd path (.foreign x) := by
  intro h
  cases h with
  | foreign hfile hread =>
    rw [reader_of_isJson readers hjson] at hread
    exact Json.read_ne_raised _ _ _ hread

end CrudScaffold.Settings
