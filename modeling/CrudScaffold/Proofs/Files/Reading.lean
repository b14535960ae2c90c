import CrudScaffold.Failure
import CrudScaffold.Proofs.Files.Replacing

/-!
# CrudScaffold.Proofs.Files.Reading — what a file that is seen can be read as

To see a file is not to read it.  A path is looked at without its content (`look`, `isFile`), and only a path that is
too long makes that fail (`look_error_iff`).  The file of a path that is seen always gives its bytes
(`readBytes_of_look`), and its text exactly if the bytes are those of a text in UTF-8 (`readText_of_look`).
-/

namespace CrudScaffold.Files

open CrudScaffold.Files.Tree CrudScaffold.Text

variable {t : Tree} {cwd : Location} {p : Path} {content : ByteArray}

/-! ### Looking at a path -/

theorem look_error_iff {f : AccessFault} : look t cwd p = .error f ↔
    p.hasNul = false ∧ t.find cwd p = .error .nameTooLong ∧ f = refuse .nameTooLong p := by
  unfold look
  by_cases hnul : p.hasNul
  · simp [hnul]
  rw [if_neg hnul, Bool.eq_false_iff.2 hnul]
  cases hfind : t.find cwd p with
  | ok a => simp
  | error cause =>
    cases cause with
    | nameTooLong => simp [absence, eq_comm]
    | _ => simp [absence]

theorem isFile_iff : isFile t cwd p = .ok true ↔ ∃ content, look t cwd p = .ok (some (.file content)) := by
  unfold isFile
  cases look t cwd p with
  | error f => simp [bind, Except.bind]
  | ok seen => rcases seen with _ | _ | content <;> simp [bind, Except.bind, pure, Except.pure]

theorem letThrough_ok_iff {α : Type} {x : Except AccessFault α} {a : α} : letThrough x = .ok a ↔ x = .ok a := by
  cases x <;> simp [letThrough]

/-! ### Reading it -/

/-- The bytes of a file that is seen. -/
theorem readBytes_of_look (h : look t cwd p = .ok (some (.file content))) : readBytes t cwd p = .ok content := by
  unfold look at h
  unfold readBytes
  split at h
  · cases h
  rename_i hnul
  rw [if_neg hnul]
  cases hfind : t.find cwd p with
  | error cause =>
    rw [hfind] at h
    cases cause <;> cases h
  | ok b =>
    rw [hfind] at h
    simp only [Except.ok.inj h]

/-- The bytes are those of a text. -/
def IsText (content : ByteArray) : Prop := ∃ s : String, content = s.toUTF8

theorem decode_ok_iff {s : String} : Utf8.decode content = .ok s ↔ content = s.toUTF8 := by
  constructor
  · intro h
    unfold Utf8.decode at h
    split at h
    · rename_i s' hread
      cases h
      unfold String.fromUTF8? at hread
      split at hread
      · rw [← Option.some.inj hread]
        rfl
      · cases hread
    · cases h
  · rintro rfl
    exact decode_toUTF8 s

theorem decode_error_iff : (∃ f, Utf8.decode content = .error f) ↔ ¬ IsText content := by
  constructor
  · rintro ⟨f, h⟩ ⟨s, hs⟩
    rw [decode_ok_iff.2 hs] at h
    cases h
  · intro hno
    cases h : Utf8.decode content with
    | error f => exact ⟨f, rfl⟩
    | ok s => exact absurd ⟨s, decode_ok_iff.1 h⟩ hno

/-- A file that is seen is read as what its bytes say, with unified line ends. -/
theorem readText_of_look (h : look t cwd p = .ok (some (.file content))) : readText t cwd p =
    match Utf8.decode content with
    | .ok s => .ok (String.ofList (unifyLineEnds s.toList))
    | .error f => .error (.encoding f) := by
  simp only [readText, readBytes_of_look h]
  cases Utf8.decode content <;> rfl

theorem readText_error_iff (h : look t cwd p = .ok (some (.file content))) :
    (∃ f, readText t cwd p = .error (.encoding f)) ↔ ¬ IsText content := by
  rw [readText_of_look h, ← decode_error_iff]
  cases Utf8.decode content <;> simp

end CrudScaffold.Files
