import CrudScaffold.Generation.EntityNames
import CrudScaffold.Proofs.Naming.LastWord
import CrudScaffold.Proofs.Naming.Segments
import CrudScaffold.Proofs.Spec.Fields
import CrudScaffold.Proofs.Spec.Relations

/-!
# CrudScaffold.Proofs.Generation.DerivedNames — table names and accessors

A table name is the snake-case form of the entity's base name with the word behind its last underscore in the plural
(`FormsTable`).  An accessor is the camel-case form of the related base name, with its last word in the plural if the
relation leads to several entities (`FormsAccessor`).  Every entity that is accepted has such a table name, and every
relation that has been read such an accessor (`derived_names`).
-/

namespace CrudScaffold.Generation

open CrudScaffold.Naming CrudScaffold.Spec CrudScaffold.Text

/-- The table name of an entity with this base name. -/
structure FormsTable (base table : String) : Prop where
  wellFormed : IsSnakeText table
  inflected : ∃ snake front word many, snakeCase base = .ok snake ∧ snake.toList = front ++ word ∧ '_' ∉ word ∧
    (front = [] ∨ ∃ before, front = before ++ ['_']) ∧ plural (String.ofList word) = .ok many ∧
    table.toList = front ++ many.toList

/-- The accessor of a relation of this kind to an entity with this base name. -/
structure FormsAccessor (kind : RelationKind) (base accessor : String) : Prop where
  ne_empty : accessor ≠ ""
  letters : ∀ c ∈ accessor.toList, c.isAlphanum = true
  small : ∀ c ∈ accessor.toList.head?, c.isUpper = false
  single : kind = .belongsTo ∨ kind = .hasOne → camelCase base = .ok accessor
  several : kind = .hasMany ∨ kind = .belongsToMany → ∃ camel before last many, camelCase base = .ok camel ∧
    LastWord camel.toList before last ∧ plural (String.ofList last) = .ok many ∧
    accessor.toList = before ++ many.toList

/-! ### Table names -/

/-- The plural of a snake-case text is a snake-case text, and only its last word is inflected. -/
theorem formsTable_of_pluralSnake {base table : String} (h : pluralSnake base = .ok table) :
    FormsTable base table := by
  obtain ⟨snake, hsnake, hplural⟩ := pluralSnake_ok h
  obtain ⟨front, word, many, hlast, hword, hfront, hmany, hletters, htable⟩ :=
    (isSnakeText_of_snakeCase hsnake).exists_plural
  obtain rfl := Except.ok.inj (hmany.symm.trans hplural)
  -- the last word has no blanks, so it is inflected as it stands
  have hsingle : ∀ c ∈ (String.ofList word).toList, isBlank c = false := by
    rw [String.toList_ofList]
    exact fun c hc => isBlank_of_isAlphanum (hlast.word.isAlphanum c hc)
  have hwhole := plural_eq (by simpa using hword.ne_nil) hsingle
  rw [String.toList_ofList, hword.inflectLast_eq] at hwhole
  refine ⟨htable, snake, front, word, _, hsnake, hlast.append, ?_, hfront, hwhole, ?_⟩
  · intro hmem
    have hlow := hword.low _ hmem
    cases hlow
  · rw [hletters, String.toList_ofList]

/-! ### Accessors -/

/-- The plural of a camel-case form keeps what stands before its last word, and begins with no capital either. -/
theorem exists_plural_camelCase {base camel : String} (h : camelCase base = .ok camel) :
    ∃ before last many, LastWord camel.toList before last ∧ plural (String.ofList last) = .ok many ∧
      plural camel = .ok (String.ofList (before ++ many.toList)) ∧ before ++ many.toList ≠ [] ∧
      ∀ c ∈ (before ++ many.toList).head?, c.isUpper = false := by
  obtain ⟨hne, halnum⟩ := isAlphanum_of_camelCase h
  have hsmall := isUpper_head_of_camelCase h
  have hend : ∃ c ∈ camel.toList.getLast?, c.isAlphanum = true :=
    ⟨_, List.getLast?_eq_some_getLast hne, halnum _ (List.getLast_mem hne)⟩
  have hlast := lastWord_splitLastWord hend
  have happend := hlast.append
  obtain ⟨many, hmany, hwhole, hletters⟩ := hlast.plural_eq fun c hc => isBlank_of_isAlphanum (halnum c hc)
  refine ⟨_, _, many, hlast, hmany, hwhole, ?_⟩
  -- what stands in front of the last word is kept
  cases hbefore : (splitLastWord camel.toList).1 with
  | cons c before =>
    rw [hbefore] at happend
    refine ⟨List.cons_ne_nil _ _, fun d hd => hsmall d ?_⟩
    rw [happend]
    exact hd
  | nil =>
    -- the form is one word: it has no capitals, and neither has its plural
    rw [hbefore, List.nil_append] at happend
    have hword : IsSnakeWord (splitLastWord camel.toList).2 := hlast.word.isSnakeWord (happend ▸ hsmall)
    rw [hletters, hword.inflectLast_eq, List.nil_append]
    refine ⟨hword.pluralWord.ne_nil, fun d hd => ?_⟩
    exact (isLowerOrDigit_fixed (hword.pluralWord.low d (List.mem_of_mem_head? hd))).1

/-- The accessor of a relation is formed from the base name of its entity. -/
theorem formsAccessor_of_accessor {r : Relation} {base accessor : String} (hbase : baseName r.related = .ok base)
    (h : r.accessor = .ok accessor) : FormsAccessor r.kind base accessor := by
  have hletters := isAlphanum_of_accessor h
  rw [Relation.accessor, hbase] at h
  have hform : (if r.kind.isPlural then pluralCamel base else camelCase base) = .ok accessor := h
  -- a single thing is named by the form itself, several by its plural
  cases hkind : r.kind.isPlural with
  | false =>
    rw [hkind] at hform
    have hform : camelCase base = .ok accessor := hform
    have hne := (isAlphanum_of_camelCase hform).1
    refine ⟨fun h => hne (by rw [h]; rfl), hletters, isUpper_head_of_camelCase hform, fun _ => hform, ?_⟩
    rintro (hmany | hmany)
    all_goals
      rw [hmany] at hkind
      cases hkind
  | true =>
    rw [hkind] at hform
    obtain ⟨camel, hcamel, hplural⟩ := bind_eq_ok.1 (show camelCase base >>= plural = .ok accessor from hform)
    obtain ⟨before, last, many, hlast, hmany, hwhole, hne, hsmall⟩ := exists_plural_camelCase hcamel
    obtain rfl := Except.ok.inj (hwhole.symm.trans hplural)
    refine ⟨ofList_ne_empty.2 hne, hletters, by rwa [String.toList_ofList], ?_, fun _ =>
      ⟨camel, before, last, many, hcamel, hlast, hmany, String.toList_ofList⟩⟩
    rintro (hsingle | hsingle)
    all_goals
      rw [hsingle] at hkind
      cases hkind

/-! ### Entities and relations -/

theorem baseName_of_require {given name base : String} (hrequire : require given = .ok name)
    (h : baseName name = .ok base) : baseName given = .ok base := by
  rw [baseName_eq_ok_iff] at h ⊢
  rwa [require_ok hrequire, trim_trim] at h

/-- **Table names and accessors are well formed.**  Every entity that is accepted has the table name of its base name,
and every relation that has been read has the accessor of its related base name. -/
theorem derived_names :
    (∀ (given root : String) (names : EntityNames), EntityNames.ofEntity given root = .ok names →
      ∃ base, baseName given = .ok base ∧ FormsTable base names.tableName) ∧
    ∀ (strict : Bool) (spec : Option String) (list : RelationList),
      (parseRelations strict spec).start.1 = .ok list → ∀ r ∈ list.relations,
        ∃ base accessor, baseName r.related = .ok base ∧ r.accessor = .ok accessor ∧
          FormsAccessor r.kind base accessor := by
  constructor
  · intro given root names h
    obtain ⟨qualifiers, hderived⟩ := ofEntity_ok h
    exact ⟨_, baseName_of_require hderived.entity hderived.model, formsTable_of_pluralSnake hderived.table⟩
  · intro strict spec list h r hr
    obtain ⟨accessor, haccessor⟩ := accessor_ok (isUsable_of_parseRelations h hr)
    obtain ⟨base, hbase, -⟩ := bind_eq_ok.1 haccessor
    exact ⟨base, accessor, hbase, haccessor, formsAccessor_of_accessor hbase haccessor⟩

theorem derived_names_sales :
    (∃ names, EntityNames.ofEntity "Admin/SalesPerson" "App" = .ok names ∧ names.tableName = "sales_people" ∧
      FormsTable "SalesPerson" names.tableName) ∧
    ∃ list, (parseRelations false (some "hasMany:Blog/UserStatus:user_id:id")).start.1 = .ok list ∧
      ∃ r ∈ list.relations, r.accessor = .ok "userStatuses" ∧ FormsAccessor .hasMany "UserStatus" "userStatuses" := by
  constructor
  · have hnames : EntityNames.ofEntity "Admin/SalesPerson" "App" =
        .ok ⟨"Admin/SalesPerson", "SalesPerson", "Admin/SalesPerson", "App\\Admin", "salesPerson", "sales_people",
          "SalesPersonController", "SalesPersonStoreRequest", "SalesPersonUpdateRequest"⟩ := by decide
    obtain ⟨base, hbase, htable⟩ := derived_names.1 _ _ _ hnames
    have hname : baseName "Admin/SalesPerson" = .ok "SalesPerson" := by decide
    obtain rfl := Except.ok.inj (hname.symm.trans hbase)
    exact ⟨_, hnames, rfl, htable⟩
  · have hread : (parseRelations false (some "hasMany:Blog/UserStatus:user_id:id")).start.1 =
        .ok ⟨[⟨.hasMany, "Blog/UserStatus", "user_id", "id"⟩], []⟩ := by decide
    obtain ⟨base, accessor, hbase, haccessor, hforms⟩ := derived_names.2 _ _ _ hread _ List.mem_cons_self
    have hname : baseName "Blog/UserStatus" = .ok "UserStatus" := by decide
    have hvalue : Relation.accessor ⟨.hasMany, "Blog/UserStatus", "user_id", "id"⟩ = .ok "userStatuses" := by
      decide
    obtain rfl := Except.ok.inj (hname.symm.trans hbase)
    obtain rfl := Except.ok.inj (hvalue.symm.trans haccessor)
    exact ⟨_, hread, _, List.mem_cons_self, hvalue, hforms⟩

end CrudScaffold.Generation
