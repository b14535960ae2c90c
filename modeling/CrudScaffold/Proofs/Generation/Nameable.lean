import CrudScaffold.Proofs.Generation.DerivedNames
import CrudScaffold.Proofs.Spec.JoinTables
import CrudScaffold.Proofs.Spec.PivotNames

/-!
# CrudScaffold.Proofs.Generation.Nameable — when what has been accepted can be named

Entities and relations are accepted by their camel-case forms, but join tables are named after singulars.  Whatever is
accepted has an accessor.  It has its join tables, and its methods, exactly if no `belongsToMany` relation has a side
that `EndsInLoneS` (`relations_named_iff`): the singular of such a name is empty, or has no letter and no digit left.
-/

namespace CrudScaffold.Generation

open CrudScaffold.Naming CrudScaffold.Spec CrudScaffold.Text

theorem pivotPart_isOk_of_camelCase {name base camel : String} (hbase : baseName name = .ok base)
    (hcamel : camelCase base = .ok camel) : (∃ part, pivotPart name = .ok part) ↔ ¬ EndsInLoneS name :=
  pivotPart_isOk_iff hbase (camelCase_isOk_iff.1 ⟨camel, hcamel⟩)

theorem pivotName_isOk_of_accepted {given root related : String} {names : EntityNames}
    (hnames : EntityNames.ofEntity given root = .ok names) (husable : isUsable related = true) :
    (∃ name, pivotName names.entity related = .ok name) ↔ ¬ EndsInLoneS names.entity ∧ ¬ EndsInLoneS related := by
  obtain ⟨qualifiers, hderived⟩ := ofEntity_ok hnames
  obtain ⟨base, camel, hbase, hcamel⟩ := isUsable_eq_true_iff.1 husable
  rw [pivotName_isOk_iff, pivotPart_isOk_of_camelCase hderived.model hderived.modelVariable,
    pivotPart_isOk_of_camelCase hbase hcamel]

theorem ofEntity_post : EntityNames.ofEntity "Post" "App" = .ok ⟨"Post", "Post", "Post", "App", "post", "posts",
    "PostController", "PostStoreRequest", "PostUpdateRequest"⟩ := by decide

/-- **What has been accepted can be named, but for lone `s`es.**  Every relation of a list that has been read has an
accessor.  For an accepted entity, the join tables of the list are collected, and the methods of its relations formed,
exactly if neither the entity nor a related entity of a `belongsToMany` relation ends in a lone `s`.  A related entity
that cannot be used is reported with the token and its position, if no token before it offends. -/
theorem relations_named_iff (given root : String) (strict : Bool) (spec : Option String) :
    (∀ (names : EntityNames) (list : RelationList), EntityNames.ofEntity given root = .ok names →
      (parseRelations strict spec).start.1 = .ok list →
        (∀ r ∈ list.relations, ∃ accessor, r.accessor = .ok accessor) ∧
        ((∃ pivots, (collectPivots names.entity list.relations).start.1 = .ok pivots) ↔
          ∀ r ∈ list.relations, r.kind = .belongsToMany → ¬ EndsInLoneS names.entity ∧ ¬ EndsInLoneS r.related) ∧
        ((∃ text, Code.relationMethods names.entity list.relations = .ok text) ↔
          ∀ r ∈ list.relations, r.kind = .belongsToMany → ¬ EndsInLoneS names.entity ∧ ¬ EndsInLoneS r.related)) ∧
    ∀ (before after : List String) (relations : List Relation) (skipped : List String) (journal : Journal)
      (token kindToken related foreignKey localKey : String) (kind : RelationKind), isAllBlank (spec.getD "") = false →
        tokens (spec.getD "") = before ++ token :: after → Sorts strict 1 before relations skipped journal →
        FourParts token kindToken related foreignKey localKey → Names kindToken kind → ¬ HasUsableSegment related →
          (parseRelations strict spec).start =
            (.error (.unusableName (1 + before.length) token related), journal) := by
  constructor
  · intro names list hnames hlist
    -- what has been accepted has an accessor
    have husable : ∀ r ∈ list.relations, isUsable r.related = true := fun r => isUsable_of_parseRelations hlist
    -- join tables and methods both wait for the names of the join tables
    have hpivots : (∀ r ∈ list.relations, r.kind.needsPivot = true →
          ∃ name, pivotName names.entity r.related = .ok name) ↔
        ∀ r ∈ list.relations, r.kind = .belongsToMany → ¬ EndsInLoneS names.entity ∧ ¬ EndsInLoneS r.related := by
      refine forall_congr' fun r => forall_congr' fun hr => ?_
      rw [needsPivot_iff, pivotName_isOk_of_accepted hnames (husable r hr)]
    refine ⟨fun r hr => accessor_ok (husable r hr), ?_, ?_⟩
    · rw [collectPivots_isOk_iff, hpivots]
    · rw [← hpivots]
      constructor
      · rintro ⟨text, htext⟩
        exact pivotName_of_relationMethods htext
      · exact relationMethods_ok husable
  · -- a token without a usable segment is reported where it stands
    intro before after relations skipped journal token kindToken related foreignKey localKey kind hblank htokens hsorts
      hfour hkind hrelated
    exact (parseRelations_error_iff hblank).2
      ⟨before, token, after, relations, skipped, htokens, hsorts, .unusableName hfour hkind hrelated⟩

/-- A relation to `S` is accepted, but it has no join table; one to `-` is reported. -/
theorem relations_named_iff_loneS :
    (∃ names list, EntityNames.ofEntity "Post" "App" = .ok names ∧
      (parseRelations false (some "belongsToMany:Blog/S:post_id:s_id")).start.1 = .ok list ∧
      (∀ r ∈ list.relations, ∃ accessor, r.accessor = .ok accessor) ∧
      ¬ ∃ pivots, (collectPivots names.entity list.relations).start.1 = .ok pivots) ∧
    (parseRelations false (some "hasOne:-:x:y")).start = (.error (.unusableName 1 "hasOne:-:x:y" "-"), []) := by
  constructor
  · have hread : (parseRelations false (some "belongsToMany:Blog/S:post_id:s_id")).start.1 =
        .ok ⟨[⟨.belongsToMany, "Blog/S", "post_id", "s_id"⟩], []⟩ := by decide
    obtain ⟨haccessor, hpivots, -⟩ := (relations_named_iff _ _ _ _).1 _ _ ofEntity_post hread
    refine ⟨_, _, ofEntity_post, hread, haccessor, fun hsome => ?_⟩
    have hends : EndsInLoneS "Blog/S" :=
      ⟨['S'], getLast_segments_iff.1 (by decide), [], 'S', by decide, Or.inr rfl, nofun⟩
    exact (hpivots.1 hsome _ List.mem_cons_self rfl).2 hends
  · have hparts : FourParts "hasOne:-:x:y" "hasOne" "-" "x" "y" := ⟨by decide, by decide⟩
    have hdash : ¬ HasUsableSegment "-" := by
      rintro ⟨last, hlast, c, hc, halnum⟩
      obtain rfl := Option.some.inj (show some ['-'] = some last from hlast)
      obtain rfl := List.mem_singleton.1 hc
      cases halnum
    exact (relations_named_iff "Post" "App" false (some "hasOne:-:x:y")).2 [] [] [] [] [] _ _ _ _ _ .hasOne (by decide)
      (by decide) .nil hparts rfl hdash

/-- The relation to `S` is accepted, but its join table has no name. -/
theorem not_accepted_named : ¬ ∀ (given root : String) (names : EntityNames) (strict : Bool) (spec : Option String)
    (list : RelationList), EntityNames.ofEntity given root = .ok names →
      (parseRelations strict spec).start.1 = .ok list →
        (∃ pivots, (collectPivots names.entity list.relations).start.1 = .ok pivots) ∧
          ∃ text, Code.relationMethods names.entity list.relations = .ok text := by
  intro h
  have hread : (parseRelations false (some "belongsToMany:S:post_id:s_id")).start.1 =
      .ok ⟨[⟨.belongsToMany, "S", "post_id", "s_id"⟩], []⟩ := by decide
  obtain ⟨⟨pivots, hpivots⟩, -⟩ := h _ _ _ _ _ _ ofEntity_post hread
  have hfault : (collectPivots "Post" [⟨.belongsToMany, "S", "post_id", "s_id"⟩]).start.1 = .error (.blank "") := by
    decide
  rw [hfault] at hpivots
  cases hpivots

end CrudScaffold.Generation
