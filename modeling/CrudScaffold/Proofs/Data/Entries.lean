import CrudScaffold.Data.Value

/-!
# CrudScaffold.Proofs.Data.Entries — maps as lists of entries

A list of entries is a mapping if no key is given twice (`IsMapping`).  What a mapping holds does not depend on the order
of its entries (`entry?_perm`).  Putting entries one after the other is an override: the last value for a key counts, and
keys that are new come behind those that were there (`entry?_putAll`, `keys_putAll`).
-/

namespace CrudScaffold.Data

/-- No key is given twice. -/
def IsMapping (entries : List (Value × Value)) : Prop := entries.Pairwise fun e e' => Value.sameKey e.1 e'.1 = false

/-- The map with more entries put into it. -/
def putAll (entries more : List (Value × Value)) : List (Value × Value) :=
  more.foldl (fun m e => Value.putEntry m e.1 e.2) entries

/-- The key is one of the map. -/
def hasKey (entries : List (Value × Value)) (key : Value) : Bool := entries.any fun e => Value.sameKey e.1 key

namespace Value

variable {entries entries' more : List (Value × Value)} {key : String} {k v : Value}

theorem sameKey_text_iff : sameKey k (.text key) = true ↔ k = .text key := by
  cases k <;> simp [sameKey, whole?]

theorem sameKey_of_text (h : sameKey (.text key) k = true) : k = .text key := by
  cases k <;> simp_all [sameKey, whole?]

theorem putEntry_of_hasKey (h : hasKey entries k = true) :
    putEntry entries k v = entries.map fun e => if sameKey e.1 k then (e.1, v) else e := if_pos h

theorem putEntry_of_new (h : hasKey entries k = false) : putEntry entries k v = entries ++ [(k, v)] :=
  if_neg (by simpa [hasKey] using h)

/-! ### Looking keys up -/

theorem entry?_cons (e : Value × Value) (entries : List (Value × Value)) (key : String) :
    entry? (e :: entries) key = if sameKey e.1 (.text key) then some e.2 else entry? entries key := by
  unfold entry?
  rw [List.find?_cons]
  cases sameKey e.1 (.text key) <;> rfl

theorem entry?_append (entries more : List (Value × Value)) (key : String) :
    entry? (entries ++ more) key = ( entry? entries key).or ( entry? more key) := by
  unfold entry?
  rw [List.find?_append]
  cases entries.find? fun e => sameKey e.1 (.text key) <;> rfl

theorem entry?_eq_none_iff : entry? entries key = none ↔ ∀ v, (.text key, v) ∉ entries := by
  unfold entry?
  rw [Option.map_eq_none_iff, List.find?_eq_none]
  constructor
  · intro h v hmem
    exact h _ hmem (sameKey_text_iff.2 rfl)
  · rintro h ⟨k, v⟩ hmem hsame
    obtain rfl := sameKey_text_iff.1 hsame
    exact h v hmem

/-- In a mapping a value is found exactly if its entry is there. -/
theorem entry?_eq_some_iff (h : IsMapping entries) : entry? entries key = some v ↔ (.text key, v) ∈ entries := by
  induction entries with
  | nil => exact ⟨nofun, nofun⟩
  | cons e entries ih =>
    obtain ⟨hfirst, hrest⟩ := List.pairwise_cons.1 h
    rw [entry?_cons, List.mem_cons]
    by_cases hsame : sameKey e.1 (.text key) = true
    · have hkey := sameKey_text_iff.1 hsame
      -- a map has no second entry under the key
      have hnot : (.text key, v) ∉ entries := by
        intro hmem
        have hother := hfirst _ hmem
        rw [hsame] at hother
        cases hother
      rw [if_pos hsame, Option.some.injEq, or_iff_left hnot, eq_comm, Prod.ext_iff]
      exact (and_iff_right hkey.symm).symm
    · have hnot : (.text key, v) ≠ e := by
        rintro rfl
        exact hsame (sameKey_text_iff.2 rfl)
      rw [if_neg hsame, or_iff_right hnot]
      exact ih hrest

/-- What a mapping holds does not depend on the order of its entries. -/
theorem entry?_perm (h : IsMapping entries) (h' : IsMapping entries') (hperm : entries.Perm entries') (key : String) :
    entry? entries key = entry? entries' key := by
  apply Option.ext
  intro v
  rw [entry?_eq_some_iff h, entry?_eq_some_iff h', hperm.mem_iff]

/-! ### Putting entries into a map -/

theorem entry?_map_put (entries : List (Value × Value)) (k v : Value) (key : String) :
    entry? (entries.map fun e => if sameKey e.1 k then (e.1, v) else e) key =
      ( entry? entries key).map fun w => if sameKey (.text key) k then v else w := by
  induction entries with
  | nil => rfl
  | cons e entries ih =>
    have hkey : (if sameKey e.1 k = true then (e.1, v) else e).1 = e.1 := by split <;> rfl
    rw [List.map_cons, entry?_cons, entry?_cons, hkey, ih]
    by_cases hsame : sameKey e.1 (.text key) = true
    · rw [if_pos hsame, if_pos hsame, Option.map_some, ← sameKey_text_iff.1 hsame]
      split <;> rfl
    · rw [if_neg hsame, if_neg hsame]

/-- The key that is put holds the new value; all others hold what they held. -/
theorem entry?_putEntry (entries : List (Value × Value)) (k v : Value) (key : String) :
    entry? (putEntry entries k v) key = if sameKey k (.text key) then some v else entry? entries key := by
  cases hany : hasKey entries k with
  | false =>
    -- the key is new: its entry stands behind all others
    rw [putEntry_of_new hany, entry?_append, entry?_cons]
    by_cases hsame : sameKey k (.text key) = true
    · have hnone : entry? entries key = none := by
        rw [entry?_eq_none_iff]
        intro w hmem
        obtain rfl := sameKey_text_iff.1 hsame
        exact absurd hsame (List.any_eq_false.1 hany _ hmem)
      rw [if_pos hsame, if_pos hsame, hnone, Option.none_or]
    · rw [if_neg hsame, if_neg hsame]
      exact Option.or_none
  | true =>
    -- the key is there: its entry stays in its place
    rw [putEntry_of_hasKey hany, entry?_map_put]
    by_cases hsame : sameKey k (.text key) = true
    · obtain rfl := sameKey_text_iff.1 hsame
      obtain ⟨w, hw⟩ : ∃ w, entry? entries key = some w := by
        rw [← Option.ne_none_iff_exists', Ne, entry?_eq_none_iff]
        intro hnone
        obtain ⟨⟨k, w⟩, hmem, hk⟩ := List.any_eq_true.1 hany
        obtain rfl := sameKey_text_iff.1 hk
        exact hnone w hmem
      rw [if_pos hsame, hw, Option.map_some, if_pos hsame]
    · have hother : ¬ sameKey (.text key) k = true := by
        intro hsame'
        exact hsame (sameKey_text_iff.2 (sameKey_of_text hsame'))
      rw [if_neg hsame]
      simp only [hother, Bool.false_eq_true, if_false, Option.map_id']

theorem keys_putEntry (entries : List (Value × Value)) (k v : Value) :
    (putEntry entries k v).map Prod.fst = entries.map Prod.fst ++ if hasKey entries k then [] else [k] := by
  cases hany : hasKey entries k with
  | false => simp [putEntry_of_new hany]
  | true =>
    have hkeys : ∀ e : Value × Value, (if sameKey e.1 k = true then (e.1, v) else e).1 = e.1 := by
      intro e
      split <;> rfl
    simp [putEntry_of_hasKey hany, Function.comp_def, hkeys]

theorem hasKey_putEntry (entries : List (Value × Value)) (k v k' : Value) (h : sameKey k k' = false) :
    hasKey (putEntry entries k v) k' = hasKey entries k' := by
  have hkeys : ∀ es : List (Value × Value), hasKey es k' = (es.map Prod.fst).any fun x => sameKey x k' := by
    intro es
    rw [hasKey, List.any_map]
    rfl
  rw [hkeys, hkeys, keys_putEntry, List.any_append]
  split <;> simp [h]

/-- What is put counts before what was there. -/
theorem entry?_putAll (entries : List (Value × Value)) (h : IsMapping more) (key : String) :
    entry? (putAll entries more) key = ( entry? more key).or ( entry? entries key) := by
  induction more generalizing entries with
  | nil => rfl
  | cons e more ih =>
    obtain ⟨hfirst, hrest⟩ := List.pairwise_cons.1 h
    have hput : putAll entries (e :: more) = putAll (putEntry entries e.1 e.2) more := rfl
    rw [hput, ih _ hrest, entry?_putEntry, entry?_cons]
    by_cases hsame : sameKey e.1 (.text key) = true
    · -- the entries that are put later have other keys
      have hnone : entry? more key = none := by
        rw [entry?_eq_none_iff]
        intro v hmem
        rw [hfirst _ hmem] at hsame
        cases hsame
      rw [if_pos hsame, if_pos hsame, hnone, Option.none_or, Option.some_or]
    · rw [if_neg hsame, if_neg hsame]

/-- The keys that are new come behind those that were there. -/
theorem keys_putAll (entries : List (Value × Value)) (h : IsMapping more) : (putAll entries more).map Prod.fst =
    entries.map Prod.fst ++ (more.map Prod.fst).filter fun k => !hasKey entries k := by
  induction more generalizing entries with
  | nil => simp [putAll]
  | cons e more ih =>
    obtain ⟨hfirst, hrest⟩ := List.pairwise_cons.1 h
    have hput : putAll entries (e :: more) = putAll (putEntry entries e.1 e.2) more := rfl
    have hlater : ∀ k ∈ more.map Prod.fst, (!hasKey (putEntry entries e.1 e.2) k) = !hasKey entries k := by
      intro k hk
      obtain ⟨e', he', rfl⟩ := List.mem_map.1 hk
      rw [hasKey_putEntry _ _ _ _ (hfirst e' he')]
    rw [hput, ih _ hrest, keys_putEntry, List.filter_congr hlater, List.map_cons, List.filter_cons, List.append_assoc]
    cases hasKey entries e.1 <;> rfl

end Value

end CrudScaffold.Data
