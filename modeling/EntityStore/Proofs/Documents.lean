import Mathlib.Data.List.Basic
import Mathlib.Data.List.Induction
import EntityStore.Metadata.Document
import EntityStore.Proofs.Rows
import EntityStore.Samples

/-!
Descriptions and their documents.

What is written as a document is read again as it was, except that reading refuses a description
in which a property is repeated, and names the first field that repeats one
(`Metadata.exists_validate_eq_error`).  So exactly valid descriptions outlast their documents, and
whatever has been read once is written and read as the same from then on
(`Metadata.document_round_trip`).  A description that is made step by step is always valid, as a
field that is declared again takes the place of the earlier one (`Metadata.fields_build`).
-/

namespace EntityStore

/-! ## Reading what has been written -/

/-- What is read back item by item is read back as a list. -/
theorem Json.listOf_map {α : Type} {read : Json → Option α} {write : α → Json}
    (back : ∀ item, read (write item) = some item) (items : List α) :
    Json.listOf read (.array (items.map write)) = some items := by
  rw [listOf]
  induction items with
  | nil => rfl
  | cons item items ih => simp [back, ih]

theorem Field.ofJson?_toJson (field : Field) : Field.ofJson? field.toJson = some field := by
  obtain ⟨property, column, type⟩ := field
  cases type <;> rfl

theorem OneToMany.ofJson?_toJson (relation : OneToMany) :
    OneToMany.ofJson? relation.toJson = some relation := rfl

theorem ManyToOne.ofJson?_toJson (relation : ManyToOne) :
    ManyToOne.ofJson? relation.toJson = some relation := rfl

theorem TemporalProperty.ofJson?_toJson (property : TemporalProperty) :
    TemporalProperty.ofJson? property.toJson = some property := by
  obtain ⟨property, type⟩ := property
  cases type <;> rfl

namespace Metadata

/-- The shape of a description is read as it was written, valid or not. -/
theorem readShape_toJson (m : Metadata) : readShape m.toJson = some m := by
  have fields := Json.listOf_map Field.ofJson?_toJson m.fields
  have oneToMany := Json.listOf_map OneToMany.ofJson?_toJson m.oneToMany
  have manyToOne := Json.listOf_map ManyToOne.ofJson?_toJson m.manyToOne
  have temporals := Json.listOf_map TemporalProperty.ofJson?_toJson m.temporals
  have members : m.toJson.members ["tableName", "idPropertyName", "fields", "oneToManyRelations",
      "manyToOneRelations", "temporalProperties"] =
      some [some (.string m.table), some (.string m.idProperty),
        some (.array (m.fields.map Field.toJson)),
        some (.array (m.oneToMany.map OneToMany.toJson)),
        some (.array (m.manyToOne.map ManyToOne.toJson)),
        some (.array (m.temporals.map TemporalProperty.toJson))] := rfl
  rw [readShape, members]
  simp [Json.required, Json.asString?, Json.withDefault, fields, oneToMany, manyToOne, temporals]

/-! ## Valid descriptions -/

/-- The first repeated field is the first whose property has been seen or is that of a field before
it. -/
theorem exists_split_of_firstRepeated {fields : List Field} {field : Field} :
    ∀ {seen : List String}, firstRepeated seen fields = some field →
      ∃ before after, fields = before ++ field :: after ∧
        (before.map (·.property)).Nodup ∧ (∀ other ∈ before, other.property ∉ seen) ∧
        (field.property ∈ seen ∨ field.property ∈ before.map (·.property)) := by
  induction fields with
  | nil => exact fun repeated => by cases repeated
  | cons first rest ih =>
      intro seen repeated
      rw [firstRepeated] at repeated
      split at repeated
      · rename_i old
        cases repeated
        exact ⟨[], rest, rfl, List.nodup_nil, List.forall_mem_nil _, .inl old⟩
      · rename_i fresh
        obtain ⟨before, after, rfl, distinct, unseen, repeats⟩ := ih repeated
        have others : first.property ∉ before.map (·.property) := by
          intro again
          obtain ⟨other, member, same⟩ := List.mem_map.mp again
          exact unseen other member (same ▸ List.mem_cons_self)
        refine ⟨first :: before, after, rfl, List.nodup_cons.mpr ⟨others, distinct⟩, ?_, ?_⟩
        · intro other member
          rcases List.mem_cons.mp member with rfl | member
          · exact fresh
          · exact fun old => unseen other member (List.mem_cons_of_mem _ old)
        · rcases repeats with old | again
          · rcases List.mem_cons.mp old with same | old
            · exact .inr (same ▸ List.mem_cons_self)
            · exact .inl old
          · exact .inr (List.mem_cons_of_mem _ again)

/-- With nothing seen before, the first repeated field has the property of a field before it. -/
theorem exists_earlier_of_firstRepeated {fields : List Field} {field : Field}
    (repeated : firstRepeated [] fields = some field) :
    ∃ before after, fields = before ++ field :: after ∧
      (before.map (·.property)).Nodup ∧ field.property ∈ before.map (·.property) := by
  obtain ⟨before, after, split, distinct, -, old | earlier⟩ :=
    exists_split_of_firstRepeated repeated
  · exact absurd old List.not_mem_nil
  · exact ⟨before, after, split, distinct, earlier⟩

/-- A description that repeats a property is refused for the first field that does. -/
theorem exists_validate_eq_error {m : Metadata}
    (repeats : ¬(m.fields.map (·.property)).Nodup) :
    ∃ before field after, m.fields = before ++ field :: after ∧
      (before.map (·.property)).Nodup ∧ field.property ∈ before.map (·.property) ∧
      m.validate = .error (.duplicateField m.table field.property) := by
  cases found : firstRepeated [] m.fields with
  | none => exact (repeats (nodup_of_firstRepeated found).2).elim
  | some field =>
      obtain ⟨before, after, split, distinct, earlier⟩ := exists_earlier_of_firstRepeated found
      refine ⟨before, field, after, split, distinct, earlier, ?_⟩
      rw [validate, found]

/-- A description is valid when no property is repeated. -/
theorem validate_eq_ok_iff {m : Metadata} :
    m.validate = .ok () ↔ (m.fields.map (·.property)).Nodup := by
  refine ⟨nodup_of_validate, fun distinct => ?_⟩
  cases found : firstRepeated [] m.fields with
  | none => rw [validate, found]
  | some field =>
      obtain ⟨before, after, split, -, earlier⟩ := exists_earlier_of_firstRepeated found
      rw [split, List.map_append, List.map_cons] at distinct
      have apart := (List.nodup_append.mp distinct).2.2
      exact (apart _ earlier _ List.mem_cons_self rfl).elim

/-- What is written is read again, or refused for what makes it invalid. -/
theorem ofJson_toJson (m : Metadata) :
    ofJson m.toJson = (m.validate.mapError .invalid).map fun _ => m := by
  simp only [ofJson, readShape_toJson]
  cases m.validate <;> rfl

/-- Only valid descriptions are read. -/
theorem validate_of_ofJson {document : Json} {m : Metadata} (read : ofJson document = .ok m) :
    m.validate = .ok () := by
  rw [ofJson] at read
  cases shape : readShape document with
  | none => simp [shape] at read
  | some m' =>
      rw [shape] at read
      cases valid : m'.validate with
      | error error => simp [valid] at read
      | ok _ =>
          simp only [valid, Except.ok.injEq] at read
          exact read ▸ valid

/-! ## Descriptions made step by step -/

/-- A step in making a description. -/
inductive BuildStep where
  | withField (field : Field)
  | withOneToMany (relation : OneToMany)
  | withManyToOne (relation : ManyToOne)
  | withTemporal (property : TemporalProperty)

/-- The description after a step. -/
def BuildStep.apply (m : Metadata) : BuildStep → Metadata
  | .withField field => m.withField field
  | .withOneToMany relation => m.withOneToMany relation
  | .withManyToOne relation => m.withManyToOne relation
  | .withTemporal property => m.withTemporal property

/-- The field that a step declares. -/
def BuildStep.field? : BuildStep → Option Field
  | .withField field => some field
  | _ => none

/-- A description made from that of a table without fields and relations. -/
def build (table idProperty : String) (steps : List BuildStep) : Metadata :=
  steps.foldl BuildStep.apply (ofTable table idProperty)

/-- The fields after several have been put in, one after the other. -/
def putFields (fields : List Field) : List Field :=
  fields.foldl (fun kept field => putField field kept) []

theorem putFields_concat (fields : List Field) (field : Field) :
    putFields (fields ++ [field]) = putField field (putFields fields) :=
  List.foldl_concat _ _ _ _

/-- Only the steps that declare fields show in the fields. -/
theorem fields_build (table idProperty : String) (steps : List BuildStep) :
    (build table idProperty steps).fields = putFields (steps.filterMap BuildStep.field?) := by
  have from_ (m : Metadata) : (steps.foldl BuildStep.apply m).fields =
      (steps.filterMap BuildStep.field?).foldl (fun kept field => putField field kept)
        m.fields := by
    induction steps generalizing m with
    | nil => rfl
    | cons step steps ih =>
        rw [List.foldl_cons, ih]
        cases step <;> rfl
  exact from_ (ofTable table idProperty)

/-- A field that is put in is found by its property, and no other is lost. -/
theorem find?_putField (field : Field) (fields : List Field) (property : String) :
    (putField field fields).find? (·.property == property) =
      if property = field.property then some field
      else fields.find? (·.property == property) := by
  induction fields with
  | nil =>
      by_cases same : property = field.property
      · simp [putField, same]
      · simp [putField, same, Ne.symm same]
  | cons first rest ih =>
      rw [putField]
      by_cases replaces : first.property = field.property
      · by_cases same : property = field.property
        · simp [replaces, same]
        · simp [replaces, same, Ne.symm same]
      · rw [if_neg replaces]
        by_cases found : first.property = property
        · have other : property ≠ field.property := found ▸ replaces
          rw [List.find?_cons_of_pos (by simpa using found),
            List.find?_cons_of_pos (by simpa using found), if_neg other]
        · rw [List.find?_cons_of_neg (by simpa using found),
            List.find?_cons_of_neg (by simpa using found), ih]

/-- A field that is put in comes last, unless its property has its place already. -/
theorem map_property_putField (field : Field) (fields : List Field) :
    (putField field fields).map (·.property) =
      if field.property ∈ fields.map (·.property) then fields.map (·.property)
      else fields.map (·.property) ++ [field.property] := by
  induction fields with
  | nil => simp [putField]
  | cons first rest ih =>
      rw [putField]
      by_cases replaces : first.property = field.property
      · simp [replaces]
      · rw [if_neg replaces, List.map_cons, ih, List.map_cons]
        simp only [List.mem_cons, Ne.symm replaces, false_or]
        split <;> rfl

theorem nodup_putFields (fields : List Field) : ((putFields fields).map (·.property)).Nodup := by
  induction fields using List.reverseRecOn with
  | nil => exact List.nodup_nil
  | append_singleton fields field ih =>
      rw [putFields_concat, map_property_putField]
      split
      · exact ih
      · rename_i fresh
        refine List.nodup_append.mpr ⟨ih, List.pairwise_singleton _ _, ?_⟩
        intro property member _ last same
        rw [List.mem_singleton] at last
        exact fresh (last ▸ same ▸ member)

/-- The properties come in the order in which they are first mentioned. -/
theorem map_property_putFields (fields : List Field) :
    (putFields fields).map (·.property) = (fields.map (·.property)).eraseDups := by
  induction fields using List.reverseRecOn with
  | nil => rfl
  | append_singleton fields field ih =>
      rw [putFields_concat, map_property_putField, ih, List.map_append, List.map_singleton,
        List.eraseDups_append]
      simp only [List.mem_eraseDups]
      generalize fields.map (·.property) = mentioned
      by_cases again : field.property ∈ mentioned
      · simp [again, List.removeAll]
      · simp [again, List.removeAll, List.eraseDups_cons]

/-- A property has the field that is put in for it last. -/
theorem find?_putFields (fields : List Field) (property : String) :
    (putFields fields).find? (·.property == property) =
      fields.reverse.find? (·.property == property) := by
  induction fields using List.reverseRecOn with
  | nil => rfl
  | append_singleton fields field ih =>
      rw [putFields_concat, find?_putField, ih, List.reverse_append, List.reverse_singleton,
        List.singleton_append]
      by_cases same : field.property = property
      · rw [if_pos same.symm, List.find?_cons_of_pos (by simpa using same)]
      · rw [if_neg (Ne.symm same), List.find?_cons_of_neg (by simpa using same)]

/-- The fields are those put in last for each property, in the order in which the properties are
first mentioned. -/
theorem putFields_eq (fields : List Field) :
    putFields fields = (fields.map (·.property)).eraseDups.filterMap fun property =>
      fields.reverse.find? (·.property == property) := by
  have own : ∀ field ∈ putFields fields,
      ((fun property => fields.reverse.find? (·.property == property)) ∘ (·.property)) field =
        some field := by
    intro field member
    rw [Function.comp_apply, ← find?_putFields]
    exact find?_eq_some_of_distinct (nodup_putFields fields) member
  rw [← map_property_putFields, List.filterMap_map, List.filterMap_congr own, List.filterMap_some]

/-- A description is read from its document as it is, if no property is repeated, and is otherwise
refused for the first field that repeats one.  Made step by step it is valid: it has the last field
for each property, in the order in which the properties are first mentioned.  And whatever
description is read from a document, in whatever form, is read from its own document too. -/
theorem document_round_trip (m : Metadata) (document : Json) (table idProperty : String)
    (steps : List BuildStep) :
    ((m.fields.map (·.property)).Nodup → ofJson m.toJson = .ok m) ∧
      (¬(m.fields.map (·.property)).Nodup →
        ∃ before field after, m.fields = before ++ field :: after ∧
          (before.map (·.property)).Nodup ∧ field.property ∈ before.map (·.property) ∧
          ofJson m.toJson = .error (.invalid (.duplicateField m.table field.property))) ∧
      (let built := build table idProperty steps
        let declared := steps.filterMap BuildStep.field?
        built.validate = .ok () ∧
          built.fields = (declared.map (·.property)).eraseDups.filterMap fun property =>
            declared.reverse.find? (·.property == property)) ∧
      (ofJson document = .ok m → ofJson m.toJson = .ok m) := by
  have accepted (valid : m.validate = .ok ()) : ofJson m.toJson = .ok m := by
    rw [ofJson_toJson, valid]
    rfl
  refine ⟨fun distinct => accepted (validate_eq_ok_iff.mpr distinct), fun repeats => ?_, ⟨?_, ?_⟩,
    fun read => accepted (validate_of_ofJson read)⟩
  · obtain ⟨before, field, after, split, distinct, again, refused⟩ :=
      exists_validate_eq_error repeats
    refine ⟨before, field, after, split, distinct, again, ?_⟩
    rw [ofJson_toJson, refused]
    rfl
  · rw [validate_eq_ok_iff, fields_build]
    exact nodup_putFields _
  · rw [fields_build]
    exact putFields_eq _

/-- Users are read again; carts with a second field for their name are refused for it, and with the
field declared again it takes the place of the first; a document without lists and types is read
with the defaults, which its description then writes. -/
theorem document_round_trip_samples :
    let again : Field := Samples.field "name" "title"
    let repeated : Metadata := { Samples.carts with fields := Samples.carts.fields ++ [again] }
    let steps := Samples.carts.fields.map BuildStep.withField ++ [.withField again]
    let document : Json :=
      .object [("tableName", .string "notes"), ("idPropertyName", .string "id"),
        ("fields", .array [.array [.string "id", .string "note_id"]])]
    let notes : Metadata := (ofTable "notes" "id").withField ⟨"id", "note_id", .unknown⟩
    (Samples.users.fields.map (·.property)).Nodup ∧
      ofJson Samples.users.toJson = .ok Samples.users ∧
      ¬(repeated.fields.map (·.property)).Nodup ∧
      (∃ before field after, repeated.fields = before ++ field :: after ∧
        (before.map (·.property)).Nodup ∧ field.property = "name") ∧
      ofJson repeated.toJson = .error (.invalid (.duplicateField "carts" "name")) ∧
      (build "carts" "id" steps).fields.map (·.column) = ["cart_id", "user_id", "title", "total"] ∧
      ofJson document = .ok notes ∧
      ofJson notes.toJson = .ok notes := by
  intro again repeated steps document notes
  have distinct : (Samples.users.fields.map (·.property)).Nodup := by decide
  have repeats : ¬(repeated.fields.map (·.property)).Nodup := by decide
  have read : ofJson document = .ok notes := rfl
  have error : ofJson repeated.toJson = .error (.invalid (.duplicateField "carts" "name")) := rfl
  obtain ⟨users, -, -, -⟩ := document_round_trip Samples.users .null "" "" []
  obtain ⟨-, refused, ⟨-, fields⟩, -⟩ := document_round_trip repeated .null "carts" "id" steps
  obtain ⟨-, -, -, settled⟩ := document_round_trip notes document "" "" []
  refine ⟨distinct, users distinct, repeats, ?_, error, ?_, read, settled read⟩
  · obtain ⟨before, field, after, split, unrepeated, -, named⟩ := refused repeats
    rw [error] at named
    cases field
    cases named
    exact ⟨before, _, after, split, unrepeated, rfl⟩
  · rw [fields]
    decide

end Metadata

end EntityStore
