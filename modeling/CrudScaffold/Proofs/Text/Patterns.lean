import CrudScaffold.Text.Pattern
import Mathlib.Data.List.Basic

/-!
# CrudScaffold.Proofs.Text.Patterns — how a text is searched for a pattern

Wherever a pattern may end, it has taken a block of the text from where it began (`reaches_append`), and a pattern that
takes a character at least goes ahead (`length_lt_of_takes`).  So the search for it is a walk through the text that goes
either past a match or past one character at which nothing matches.  `Scans` is this walk, and `scans_pieces` says that
it gives the pieces of the text.  What a pattern does to a text is then proved by induction on the walk.
-/

namespace CrudScaffold.Text.Pattern

variable {p q : Pattern} {s t : Spot} {keep : Char → Bool} {back rest cs : List Char} {groups : List (List Char)}

/-! ### Where a pattern may end -/

theorem mem_runs_iff : t ∈ runs keep groups back cs ↔
    ∃ w rest, cs = w ++ rest ∧ (∀ c ∈ w, keep c = true) ∧ t = ⟨w.reverse ++ back, rest, groups⟩ := by
  induction cs generalizing back with
  | nil =>
    rw [runs, List.mem_singleton]
    constructor
    · rintro rfl
      exact ⟨[], [], rfl, nofun, rfl⟩
    · rintro ⟨w, rest, hcs, -, rfl⟩
      obtain ⟨rfl, rfl⟩ := List.append_eq_nil_iff.1 hcs.symm
      rfl
  | cons c cs ih =>
    have hhere : (⟨back, c :: cs, groups⟩ : Spot) = ⟨[].reverse ++ back, c :: cs, groups⟩ := rfl
    unfold runs
    -- a character of the class may be taken, and then those behind it
    split
    · rename_i hc
      rw [List.mem_append, ih, List.mem_singleton]
      constructor
      · rintro (⟨w, rest, rfl, hw, rfl⟩ | rfl)
        · exact ⟨c :: w, rest, rfl, List.forall_mem_cons.2 ⟨hc, hw⟩, by simp⟩
        · exact ⟨[], c :: cs, rfl, nofun, hhere⟩
      · rintro ⟨_ | ⟨d, w⟩, rest, hcs, hw, rfl⟩
        · exact Or.inr (by rw [hhere, hcs]; rfl)
        · obtain ⟨rfl, rfl⟩ := List.cons_eq_cons.1 hcs
          exact Or.inl ⟨w, rest, rfl, (List.forall_mem_cons.1 hw).2, by simp⟩
    · rename_i hc
      rw [List.mem_singleton]
      constructor
      · rintro rfl
        exact ⟨[], c :: cs, rfl, nofun, hhere⟩
      · rintro ⟨_ | ⟨d, w⟩, rest, hcs, hw, rfl⟩
        · rw [hhere, hcs]
          rfl
        · obtain ⟨rfl, -⟩ := List.cons_eq_cons.1 hcs
          exact absurd (hw c List.mem_cons_self) hc

@[simp] theorem mem_reaches_one : t ∈ (one keep).reaches s ↔
    ∃ c rest, s.rest = c :: rest ∧ keep c = true ∧ t = ⟨c :: s.back, rest, s.groups⟩ := by
  obtain ⟨back, cs, groups⟩ := s
  cases cs with
  | nil => simp [reaches]
  | cons c cs => by_cases hc : keep c = true <;> simp [reaches, hc]

@[simp] theorem mem_reaches_seq : t ∈ (seq p q).reaches s ↔ ∃ m ∈ p.reaches s, t ∈ q.reaches m := by
  simp [reaches]

@[simp] theorem mem_reaches_either : t ∈ (either p q).reaches s ↔ t ∈ p.reaches s ∨ t ∈ q.reaches s := by
  simp [reaches]

@[simp] theorem mem_reaches_plus : t ∈ (plus keep).reaches s ↔ ∃ w rest, s.rest = w ++ rest ∧ w ≠ [] ∧
    (∀ c ∈ w, keep c = true) ∧ t = ⟨w.reverse ++ s.back, rest, s.groups⟩ := by
  obtain ⟨back, cs, groups⟩ := s
  rw [plus, mem_reaches_seq]
  simp only
  constructor
  · rintro ⟨m, hm, ht⟩
    obtain ⟨c, cs, rfl, hc, rfl⟩ := mem_reaches_one.1 hm
    obtain ⟨w, rest, rfl, hw, rfl⟩ := mem_runs_iff.1 ht
    exact ⟨c :: w, rest, rfl, List.cons_ne_nil c w, List.forall_mem_cons.2 ⟨hc, hw⟩, by simp⟩
  · rintro ⟨w, rest, rfl, hne, hw, rfl⟩
    obtain ⟨c, w, rfl⟩ := List.exists_cons_of_ne_nil hne
    obtain ⟨hc, hw⟩ := List.forall_mem_cons.1 hw
    exact ⟨_, mem_reaches_one.2 ⟨c, w ++ rest, rfl, hc, rfl⟩, mem_runs_iff.2 ⟨w, rest, rfl, hw, by simp⟩⟩

theorem mem_reaches_group_iff : t ∈ (group p).reaches s ↔
    ∃ m ∈ p.reaches s, t = { m with groups := m.groups ++ [s.rest.take (s.rest.length - m.rest.length)] } := by
  simp only [reaches, List.mem_map, eq_comm]

/-- A pattern takes a block of the text, wherever it ends. -/
theorem reaches_append (p : Pattern) (h : t ∈ p.reaches s) :
    ∃ w, s.rest = w ++ t.rest ∧ t.back = w.reverse ++ s.back := by
  -- one case for each pattern; the ones that take characters come first
  induction p generalizing s t with
  | one keep =>
    obtain ⟨c, rest, hrest, -, rfl⟩ := mem_reaches_one.1 h
    exact ⟨[c], hrest, rfl⟩
  | many keep =>
    obtain ⟨w, rest, hrest, -, rfl⟩ := mem_runs_iff.1 h
    exact ⟨w, hrest, rfl⟩
  | seq p q ihp ihq =>
    obtain ⟨m, hm, ht⟩ := mem_reaches_seq.1 h
    obtain ⟨v, hv, hback⟩ := ihp hm
    obtain ⟨w, hw, hback'⟩ := ihq ht
    exact ⟨v ++ w, by rw [hv, hw, List.append_assoc], by rw [hback', hback, List.reverse_append, List.append_assoc]⟩
  | either p q ihp ihq => exact (mem_reaches_either.1 h).elim ihp ihq
  | group p ih =>
    obtain ⟨m, hm, rfl⟩ := mem_reaches_group_iff.1 h
    exact ih (t := m) hm
  -- the other patterns take nothing
  | empty =>
    obtain rfl := List.mem_singleton.1 h
    exact ⟨[], rfl, rfl⟩
  | ahead p =>
    unfold reaches at h
    split at h
    · cases h
    · obtain rfl := List.mem_singleton.1 h
      exact ⟨[], rfl, rfl⟩
  | edge isWord =>
    unfold reaches at h
    split at h
    · cases h
    · obtain rfl := List.mem_singleton.1 h
      exact ⟨[], rfl, rfl⟩
  | start =>
    unfold reaches at h
    split at h
    · obtain rfl := List.mem_singleton.1 h
      exact ⟨[], rfl, rfl⟩
    · cases h
  | finish =>
    unfold reaches at h
    split at h
    · obtain rfl := List.mem_singleton.1 h
      exact ⟨[], rfl, rfl⟩
    · cases h

/-- A remembered part is the block that has been taken. -/
@[simp] theorem mem_reaches_group : t ∈ (group p).reaches s ↔
    ∃ m ∈ p.reaches s, ∃ w, s.rest = w ++ m.rest ∧ t = { m with groups := m.groups ++ [w] } := by
  rw [mem_reaches_group_iff]
  refine exists_congr fun m => and_congr_right fun hm => ?_
  obtain ⟨w, hw, -⟩ := reaches_append p hm
  have htake : s.rest.take (s.rest.length - m.rest.length) = w := by simp [hw]
  rw [htake]
  constructor
  · rintro rfl
    exact ⟨w, hw, rfl⟩
  · rintro ⟨v, hv, rfl⟩
    rw [List.append_cancel_right (hw.symm.trans hv)]

/-- The pattern takes a character at least. -/
def takes : Pattern → Bool
  | .one _ => true
  | .seq p q => takes p || takes q
  | .either p q => takes p && takes q
  | .group p => takes p
  | _ => false

theorem length_le_of_reaches (h : t ∈ p.reaches s) : t.rest.length ≤ s.rest.length := by
  obtain ⟨w, hrest, -⟩ := reaches_append p h
  rw [hrest, List.length_append]
  omega

theorem length_lt_of_takes (htakes : p.takes = true) (h : t ∈ p.reaches s) : t.rest.length < s.rest.length := by
  induction p generalizing s t with
  | one keep =>
    obtain ⟨c, rest, hrest, -, rfl⟩ := mem_reaches_one.1 h
    show rest.length < s.rest.length
    rw [hrest]
    exact Nat.lt_succ_self _
  | seq p q ihp ihq =>
    obtain ⟨m, hm, ht⟩ := mem_reaches_seq.1 h
    -- one of the two parts takes something, and the other one gives nothing back
    rcases Bool.or_eq_true_iff.1 htakes with htakes | htakes
    · exact Nat.lt_of_le_of_lt (length_le_of_reaches ht) (ihp htakes hm)
    · exact Nat.lt_of_lt_of_le (ihq htakes ht) (length_le_of_reaches hm)
  | either p q ihp ihq =>
    obtain ⟨hp, hq⟩ := Bool.and_eq_true_iff.1 htakes
    exact (mem_reaches_either.1 h).elim (ihp hp) (ihq hq)
  | group p ih =>
    obtain ⟨m, hm, rfl⟩ := mem_reaches_group_iff.1 h
    exact ih (t := m) htakes hm
  | _ => cases htakes

/-! ### The preferred end -/

theorem runs_append (groups : List (List Char)) (back : List Char) {w : List Char} (hw : ∀ c ∈ w, keep c = true)
    (hrest : ∀ c ∈ rest.head?, keep c = false) :
    ∃ fewer, runs keep groups back (w ++ rest) = ⟨w.reverse ++ back, rest, groups⟩ :: fewer := by
  induction w generalizing back with
  | nil =>
    cases rest with
    | nil => exact ⟨[], rfl⟩
    | cons c rest => exact ⟨[], by simp [runs, hrest c rfl]⟩
  | cons c w ih =>
    obtain ⟨hc, hw⟩ := List.forall_mem_cons.1 hw
    obtain ⟨fewer, hfewer⟩ := ih (c :: back) hw
    exact ⟨fewer ++ [⟨back, c :: (w ++ rest), groups⟩], by simp [runs, hc, hfewer]⟩

theorem runs_append_cons (groups : List (List Char)) (back : List Char) {w : List Char} {a : Char}
    (hw : ∀ c ∈ w, keep c = true) (ha : keep a = true) (hrest : ∀ c ∈ rest.head?, keep c = false) :
    ∃ fewer, runs keep groups back (w ++ a :: rest) =
      ⟨a :: w.reverse ++ back, rest, groups⟩ :: ⟨w.reverse ++ back, a :: rest, groups⟩ :: fewer := by
  induction w generalizing back with
  | nil =>
    cases rest with
    | nil => exact ⟨[], by simp [runs, ha]⟩
    | cons c rest => exact ⟨[], by simp [runs, ha, hrest c rfl]⟩
  | cons c w ih =>
    obtain ⟨hc, hw⟩ := List.forall_mem_cons.1 hw
    obtain ⟨fewer, hfewer⟩ := ih (c :: back) hw
    exact ⟨fewer ++ [⟨back, c :: (w ++ a :: rest), groups⟩], by simp [runs, hc, hfewer]⟩

/-- One character of a class and more of them are taken as far as the class goes. -/
theorem reaches_plus (groups : List (List Char)) (back : List Char) {w : List Char} (hne : w ≠ [])
    (hw : ∀ c ∈ w, keep c = true) (hrest : ∀ c ∈ rest.head?, keep c = false) :
    ∃ fewer, (plus keep).reaches ⟨back, w ++ rest, groups⟩ = ⟨w.reverse ++ back, rest, groups⟩ :: fewer := by
  obtain ⟨c, w, rfl⟩ := List.exists_cons_of_ne_nil hne
  obtain ⟨hc, hw⟩ := List.forall_mem_cons.1 hw
  obtain ⟨fewer, hfewer⟩ := runs_append groups (c :: back) hw hrest
  exact ⟨fewer, by simp [plus, reaches, hc, hfewer]⟩

/-- Behind two characters of a class or more, one may be given back. -/
theorem reaches_plus_cons (groups : List (List Char)) (back : List Char) {w : List Char} {a : Char} (hne : w ≠ [])
    (hw : ∀ c ∈ w, keep c = true) (ha : keep a = true) (hrest : ∀ c ∈ rest.head?, keep c = false) :
    ∃ fewer, (plus keep).reaches ⟨back, w ++ a :: rest, groups⟩ =
      ⟨a :: w.reverse ++ back, rest, groups⟩ :: ⟨w.reverse ++ back, a :: rest, groups⟩ :: fewer := by
  obtain ⟨c, w, rfl⟩ := List.exists_cons_of_ne_nil hne
  obtain ⟨hc, hw⟩ := List.forall_mem_cons.1 hw
  obtain ⟨fewer, hfewer⟩ := runs_append_cons groups (c :: back) hw ha hrest
  exact ⟨fewer, by simp [plus, reaches, hc, hfewer]⟩

theorem reaches_plus_eq_nil (h : ∀ c ∈ cs.head?, keep c = false) : (plus keep).reaches ⟨back, cs, groups⟩ = [] := by
  cases cs with
  | nil => rfl
  | cons c cs => simp [plus, reaches, h c rfl]

theorem head?_either_left (h : (p.reaches s).head? = some t) : ((either p q).reaches s).head? = some t := by
  rw [reaches, List.head?_append, h, Option.some_or]

theorem reaches_either_right (h : p.reaches s = []) : (either p q).reaches s = q.reaches s := by
  rw [reaches, h, List.nil_append]

theorem reaches_seq_eq_nil (h : p.reaches s = []) : (seq p q).reaches s = [] := by
  rw [reaches, h, List.flatMap_nil]

theorem head?_seq {m : Spot} (hp : (p.reaches s).head? = some m) (hq : (q.reaches m).head? = some t) :
    ((seq p q).reaches s).head? = some t := by
  obtain ⟨more, hmore⟩ := List.head?_eq_some_iff.1 hp
  rw [reaches, hmore, List.flatMap_cons, List.head?_append, hq, Option.some_or]

theorem reaches_ahead_of_mem (h : t ∈ p.reaches s) : (ahead p).reaches s = [s] := by
  have hne : (p.reaches s).isEmpty = false := List.isEmpty_eq_false_iff.2 (List.ne_nil_of_mem h)
  rw [reaches, hne, if_neg Bool.false_ne_true]

/-! ### The walk through a text -/

/-- The pieces of a text behind `back`: at each place there is a match, and the search goes on behind it, or nothing
matches, and it goes on behind one character. -/
inductive Scans (p : Pattern) : List Char → List Char → List Piece → Prop
  | nil {back : List Char} : Scans p back [] []
  | hit {back w rest : List Char} {groups : List (List Char)} {pieces : List Piece} (hne : w ≠ [])
      (hfirst : p.first back (w ++ rest) = some ⟨w.reverse ++ back, rest, groups⟩)
      (h : Scans p (w.reverse ++ back) rest pieces) : Scans p back (w ++ rest) (.hit w groups :: pieces)
  | plain {back cs : List Char} {c : Char} {pieces : List Piece} (hnone : p.first back (c :: cs) = none)
      (h : Scans p (c :: back) cs pieces) : Scans p back (c :: cs) (.plain c :: pieces)

theorem pieces_skip (p : Pattern) (back w rest : List Char) :
    p.pieces w.length back (w ++ rest) = p.pieces 0 (w.reverse ++ back) rest := by
  induction w generalizing back with
  | nil => rfl
  | cons c w ih =>
    rw [List.cons_append, List.length_cons, pieces, ih, List.reverse_cons, List.append_assoc, List.singleton_append]

theorem pieces_hit {w : List Char} (hne : w ≠ [])
    (hfirst : p.first back (w ++ rest) = some ⟨w.reverse ++ back, rest, groups⟩) :
    p.pieces 0 back (w ++ rest) = .hit w groups :: p.pieces 0 (w.reverse ++ back) rest := by
  obtain ⟨c, w, rfl⟩ := List.exists_cons_of_ne_nil hne
  have hsize : (w ++ rest).length + 1 - rest.length = w.length + 1 := by
    rw [List.length_append]
    omega
  rw [List.cons_append] at hfirst ⊢
  rw [pieces, hfirst, Option.map_some, hsize]
  simp only [List.take_left, pieces_skip, List.reverse_cons, List.append_assoc, List.singleton_append]

theorem pieces_plain {c : Char} (hnone : p.first back (c :: cs) = none) :
    p.pieces 0 back (c :: cs) = .plain c :: p.pieces 0 (c :: back) cs := by
  rw [pieces, hnone, Option.map_none]

theorem mem_of_first (h : p.first back cs = some t) : t ∈ p.reaches ⟨back, cs, []⟩ := List.mem_of_mem_head? h

theorem first_eq_none_iff : p.first back cs = none ↔ p.reaches ⟨back, cs, []⟩ = [] := List.head?_eq_none_iff

theorem not_mem_of_first (h : p.first back cs = none) (t : Spot) : t ∉ p.reaches ⟨back, cs, []⟩ := by
  rw [first_eq_none_iff.1 h]
  exact List.not_mem_nil

/-- The search for a pattern that takes a character at least is such a walk. -/
theorem scans_pieces (htakes : p.takes = true) (back cs : List Char) : Scans p back cs (p.pieces 0 back cs) := by
  -- behind a match the search goes on in a text that is shorter by more than one character, perhaps
  induction hlength : cs.length using Nat.strongRecOn generalizing back cs with
  | _ n ih =>
    cases cs with
    | nil => exact .nil
    | cons c cs =>
      cases hfirst : p.first back (c :: cs) with
      | none =>
        rw [pieces_plain hfirst]
        exact .plain hfirst (ih cs.length (by rw [← hlength]; exact Nat.lt_succ_self _) (c :: back) cs rfl)
      -- the match takes something, so the rest is shorter
      | some t =>
        obtain ⟨w, hrest, hback⟩ := reaches_append p (mem_of_first hfirst)
        have hshorter := length_lt_of_takes htakes (mem_of_first hfirst)
        obtain ⟨tback, rest, groups⟩ := t
        obtain rfl : tback = w.reverse ++ back := hback
        have hne : w ≠ [] := by
          rintro rfl
          rw [hrest] at hshorter
          exact Nat.lt_irrefl _ hshorter
        rw [hlength] at hshorter
        simp only at hrest hshorter
        rw [hrest] at hfirst ⊢
        rw [pieces_hit hne hfirst]
        exact .hit hne hfirst (ih rest.length hshorter (w.reverse ++ back) rest rfl)

end CrudScaffold.Text.Pattern
