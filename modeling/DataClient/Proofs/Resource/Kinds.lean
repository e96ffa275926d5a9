import DataClient.Proofs.Resource.Form

/-!
# Metrics, table definitions and configuration entries survive

The three kinds of resources have a form (`Metric.form`, `TableDefinition.form`,
`Configuration.form`), so their documents survive being sent, listed and edited
(`Resource.documents_survive`).
-/

set_option autoImplicit false

namespace DataClient

open Json Json.Reader Resource

/-! ## Metrics -/

namespace Metric

/-- The members of a metric as JSON. -/
def members (m : Metric) : List (String × Json) :=
  optionalMember "id" ofInt64 m.id
    ++ [("name", .string m.name), ("dataSourceType", .string m.dataSource.name),
      ("sourceUrl", .string m.sourceUrl)]
    ++ optionalMember "dataPath" .string m.dataPath
    ++ [("fieldMappings", dictionaryJson (fun t => .string (FieldType.name t)) m.fieldMappings)]

/-- What is known of a metric when the members of some names have been read. -/
def known (m : Metric) (names : List String) : Partial where
  id := if "id" ∈ names then some m.id else none
  name := if "name" ∈ names then some m.name else none
  dataSource := if "dataSourceType" ∈ names then some m.dataSource else none
  sourceUrl := if "sourceUrl" ∈ names then some m.sourceUrl else none
  dataPath := if "dataPath" ∈ names then some m.dataPath else none
  fieldMappings := if "fieldMappings" ∈ names then some m.fieldMappings else none

theorem finish_eq_ok {p : Partial} {m : Metric} :
    p.finish = .ok m ↔ p.id.getD none = m.id ∧ p.name = some m.name ∧
      p.dataSource = some m.dataSource ∧ p.sourceUrl = some m.sourceUrl ∧
      p.dataPath.getD none = m.dataPath ∧ p.fieldMappings.getD [] = m.fieldMappings := by
  obtain ⟨id, name, dataSource, sourceUrl, dataPath, fieldMappings⟩ := p
  obtain ⟨id', name', dataSource', sourceUrl', dataPath', fieldMappings'⟩ := m
  cases name <;> cases dataSource <;> cases sourceUrl <;>
    simp [Partial.finish, bind, Except.bind, pure, Except.pure]

theorem isLoose_id : IsLoose fields Partial.finish "id" := by
  refine isLoose_of_optional _ (fun s v => { s with id := some v }) (fun s => { s with id := none })
    rfl (fun _ => rfl) ?_ ?_ fun s m h => ?_
  · rintro ⟨_ | v⟩ h
    · rfl
    · cases h
  · simp only [fields, List.forall_mem_cons, List.not_mem_nil, false_implies, implies_true, and_true]
    refine ⟨fun h => absurd rfl h, ?_, ?_, ?_, ?_, ?_⟩ <;> exact fun _ => .of_put fun _ => rfl
  · obtain ⟨-, hrest⟩ := finish_eq_ok.1 h
    exact ⟨{ m with id := none }, finish_eq_ok.2 ⟨rfl, hrest⟩⟩

theorem isLoose_dataPath : IsLoose fields Partial.finish "dataPath" := by
  refine isLoose_of_optional _ (fun s v => { s with dataPath := some v })
    (fun s => { s with dataPath := none }) rfl (fun _ => rfl) ?_ ?_ fun s m h => ?_
  · rintro ⟨id, name, dataSource, sourceUrl, _ | v⟩ h
    · rfl
    · cases h
  · simp only [fields, List.forall_mem_cons, List.not_mem_nil, false_implies, implies_true, and_true]
    refine ⟨?_, ?_, ?_, ?_, fun h => absurd rfl h, ?_⟩ <;> exact fun _ => .of_put fun _ => rfl
  · obtain ⟨hid, hname, hsource, hurl, -, hrest⟩ := finish_eq_ok.1 h
    exact ⟨{ m with dataPath := none }, finish_eq_ok.2 ⟨hid, hname, hsource, hurl, rfl, hrest⟩⟩

theorem isLoose_fieldMappings : IsLoose fields Partial.finish "fieldMappings" := by
  refine isLoose_of_optional _ (fun s v => { s with fieldMappings := some (v.getD []) })
    (fun s => { s with fieldMappings := none }) rfl (fun _ => rfl) ?_ ?_ fun s m h => ?_
  · rintro ⟨id, name, dataSource, sourceUrl, dataPath, _ | v⟩ h
    · rfl
    · cases h
  · simp only [fields, List.forall_mem_cons, List.not_mem_nil, false_implies, implies_true, and_true]
    refine ⟨?_, ?_, ?_, ?_, ?_, fun h => absurd rfl h⟩ <;> exact fun _ => .of_put fun _ => rfl
  · obtain ⟨hid, hname, hsource, hurl, hpath, -⟩ := finish_eq_ok.1 h
    exact ⟨{ m with fieldMappings := [] }, finish_eq_ok.2 ⟨hid, hname, hsource, hurl, hpath, rfl⟩⟩

theorem readsValue_fields : ∀ f ∈ fields, ∀ s, ReadsValue (f.read s) := by
  simp only [fields, List.forall_mem_cons, List.not_mem_nil, false_implies, implies_true, and_true]
  exact ⟨readsValue_optionalField readsValue_number, readsValue_required readsValue_string,
    readsValue_required (readsValue_variant _), readsValue_required readsValue_string,
    readsValue_optionalField readsValue_string,
    readsValue_emptiable (readsValue_dictionary (readsValue_variant _))⟩

theorem takes_member {m : Metric} (hordered : Ordered m.fieldMappings) {e : String × Json}
    (he : e ∈ m.members) {names : List String} (hnew : e.1 ∉ names) {d : Nat} (hd : 1 < d) (l : Layout)
    (level : Nat) :
    Takes Ends (fieldByName fields e.1 (m.known names)) d (':' :: (l.gap ++ written l level e.2))
      (m.known (names ++ [e.1])) := by
  simp only [members, List.mem_append, mem_optionalMember, List.mem_cons, List.not_mem_nil, or_false,
    or_assoc] at he
  rcases he with ⟨n, hn, rfl⟩ | rfl | rfl | rfl | ⟨s, hs, rfl⟩ | rfl
  · exact takes_optionalField (show fields.find? (·.name == "id") = some _ from rfl) (if_neg hnew)
      (reads_int64 n d) (notNull_ofInt64 n) (by simp [known, hn]) l level
  · exact takes_required (show fields.find? (·.name == "name") = some _ from rfl) (if_neg hnew)
      (reads_string m.name d) (by simp [known]) l level
  · exact takes_required (show fields.find? (·.name == "dataSourceType") = some _ from rfl)
      (if_neg hnew) (reads_dataSource m.dataSource d) (by simp [known]) l level
  · exact takes_required (show fields.find? (·.name == "sourceUrl") = some _ from rfl) (if_neg hnew)
      (reads_string m.sourceUrl d) (by simp [known]) l level
  · exact takes_optionalField (show fields.find? (·.name == "dataPath") = some _ from rfl)
      (if_neg hnew) (reads_string s d) (notNull_string s) (by simp [known, hs]) l level
  · exact takes_emptiable (show fields.find? (·.name == "fieldMappings") = some _ from rfl)
      (if_neg hnew) (reads_dictionaryJson hd hordered fun t => reads_fieldType t (d - 1))
      (notNull_object _) (by simp [known]) l level

theorem ensures_ordered : reader.Ensures fun m => Ordered m.fieldMappings := by
  refine ensures_record (P := fun p : Partial => ∀ ms ∈ p.fieldMappings, Ordered ms) ?_
    (fun _ h => by cases h) fun p m hp hm => ?_
  · simp only [fields, List.forall_mem_cons, List.not_mem_nil, false_implies, implies_true, and_true]
    refine ⟨?_, ?_, ?_, ?_, ?_, ?_⟩
    · exact fun s hs => .after fun _ => .pure hs
    · exact fun s hs => .after fun _ => .pure hs
    · exact fun s hs => .after fun _ => .pure hs
    · exact fun s hs => .after fun _ => .pure hs
    · exact fun s hs => .after fun _ => .pure hs
    · refine fun s _ => ensures_emptiable fun ms hms => ?_
      rintro _ ⟨⟩
      exact hms
  · obtain ⟨-, -, -, -, -, hmappings⟩ := finish_eq_ok.1 hm
    rw [← hmappings]
    exact ordered_getD hp

/-- Metrics as documents. -/
def form : Form Metric Partial where
  name := "MetricInfo"
  fields := fields
  empty := {}
  finish := Partial.finish
  members := members
  known := known
  ordered m := Ordered m.fieldMappings
  readsValue := readsValue_fields
  loose := by
    show ∀ key ∈ ["id", "dataPath", "fieldMappings"], IsLoose fields Partial.finish key
    simp only [List.forall_mem_cons, List.not_mem_nil, false_implies, implies_true, and_true]
    exact ⟨isLoose_id, isLoose_dataPath, isLoose_fieldMappings⟩
  ensures_ordered := ensures_ordered
  known_nil _ := rfl
  keys_nodup m := by
    have hsub : (m.members.map (·.1)).Sublist (fields.map (·.name)) := by
      simp only [members, List.map_append]
      exact (((keys_optionalMember _ _ _).append (.refl _)).append (keys_optionalMember _ _ _)).append
        (.refl _)
    exact hsub.nodup (by decide)
  sorted_values m hordered e he := by
    simp only [members, List.mem_append, mem_optionalMember, List.mem_cons, List.not_mem_nil, or_false,
      or_assoc] at he
    rcases he with ⟨n, hn, rfl⟩ | rfl | rfl | rfl | ⟨s, hs, rfl⟩ | rfl
    · rfl
    · rfl
    · rfl
    · rfl
    · rfl
    · exact sorted_dictionaryJson hordered fun t => sorted_string t.name
  takes_member m hordered e he names hnew d hd := takes_member hordered he hnew hd
  finish_known m names hnames := by
    simp only [members, List.map_append, List.mem_append, mem_keys_optionalMember] at hnames
    refine finish_eq_ok.2 ⟨getD_known (by simp [hnames]), if_pos (by simp [hnames]),
      if_pos (by simp [hnames]), if_pos (by simp [hnames]), getD_known (by simp [hnames]), ?_⟩
    exact congrArg (Option.getD · []) (if_pos (by simp [hnames]))

end Metric

/-! ## Table definitions -/

namespace TableDefinition

/-- The members of a table definition as JSON. -/
def members (t : TableDefinition) : List (String × Json) :=
  optionalMember "id" ofInt64 t.id
    ++ [("tableName", .string t.tableName), ("primaryKeys", .array (t.primaryKeys.map .string)),
      ("metricFields", dictionaryJson .string t.metricFields),
      ("fieldMapping", dictionaryJson .string t.fieldMapping),
      ("fieldTypes", dictionaryJson (fun f => .string (FieldType.name f)) t.fieldTypes)]
    ++ optionalMember "timeGranularity" (fun g => .string (Granularity.name g)) t.granularity

/-- What is known of a table definition when the members of some names have been read. -/
def known (t : TableDefinition) (names : List String) : Partial where
  id := if "id" ∈ names then some t.id else none
  tableName := if "tableName" ∈ names then some t.tableName else none
  primaryKeys := if "primaryKeys" ∈ names then some t.primaryKeys else none
  metricFields := if "metricFields" ∈ names then some t.metricFields else none
  fieldMapping := if "fieldMapping" ∈ names then some t.fieldMapping else none
  fieldTypes := if "fieldTypes" ∈ names then some t.fieldTypes else none
  granularity := if "timeGranularity" ∈ names then some t.granularity else none

/-- The three dictionaries stand in the order of their keys. -/
structure IsOrdered (t : TableDefinition) : Prop where
  metricFields : Ordered t.metricFields
  fieldMapping : Ordered t.fieldMapping
  fieldTypes : Ordered t.fieldTypes

theorem finish_eq_ok {p : Partial} {t : TableDefinition} :
    p.finish = .ok t ↔ p.id.getD none = t.id ∧ p.tableName = some t.tableName ∧
      p.primaryKeys.getD [] = t.primaryKeys ∧ p.metricFields.getD [] = t.metricFields ∧
      p.fieldMapping.getD [] = t.fieldMapping ∧ p.fieldTypes.getD [] = t.fieldTypes ∧
      p.granularity.getD none = t.granularity := by
  obtain ⟨id, tableName, primaryKeys, metricFields, fieldMapping, fieldTypes, granularity⟩ := p
  obtain ⟨id', tableName', primaryKeys', metricFields', fieldMapping', fieldTypes', granularity'⟩ := t
  cases tableName <;> simp [Partial.finish, bind, Except.bind, pure, Except.pure]

theorem isLoose_id : IsLoose fields Partial.finish "id" := by
  refine isLoose_of_optional _ (fun s v => { s with id := some v }) (fun s => { s with id := none })
    rfl (fun _ => rfl) ?_ ?_ fun s t h => ?_
  · rintro ⟨_ | v⟩ h
    · rfl
    · cases h
  · simp only [fields, List.forall_mem_cons, List.not_mem_nil, false_implies, implies_true, and_true]
    refine ⟨fun h => absurd rfl h, ?_, ?_, ?_, ?_, ?_, ?_⟩ <;> exact fun _ => .of_put fun _ => rfl
  · obtain ⟨-, hrest⟩ := finish_eq_ok.1 h
    exact ⟨{ t with id := none }, finish_eq_ok.2 ⟨rfl, hrest⟩⟩

theorem isLoose_primaryKeys : IsLoose fields Partial.finish "primaryKeys" := by
  refine isLoose_of_optional _ (fun s v => { s with primaryKeys := some (v.getD []) })
    (fun s => { s with primaryKeys := none }) rfl (fun _ => rfl) ?_ ?_ fun s t h => ?_
  · rintro ⟨id, tableName, _ | v⟩ h
    · rfl
    · cases h
  · simp only [fields, List.forall_mem_cons, List.not_mem_nil, false_implies, implies_true, and_true]
    refine ⟨?_, ?_, fun h => absurd rfl h, ?_, ?_, ?_, ?_⟩ <;> exact fun _ => .of_put fun _ => rfl
  · obtain ⟨hid, hname, -, hrest⟩ := finish_eq_ok.1 h
    exact ⟨{ t with primaryKeys := [] }, finish_eq_ok.2 ⟨hid, hname, rfl, hrest⟩⟩

theorem isLoose_metricFields : IsLoose fields Partial.finish "metricFields" := by
  refine isLoose_of_optional _ (fun s v => { s with metricFields := some (v.getD []) })
    (fun s => { s with metricFields := none }) rfl (fun _ => rfl) ?_ ?_ fun s t h => ?_
  · rintro ⟨id, tableName, primaryKeys, _ | v⟩ h
    · rfl
    · cases h
  · simp only [fields, List.forall_mem_cons, List.not_mem_nil, false_implies, implies_true, and_true]
    refine ⟨?_, ?_, ?_, fun h => absurd rfl h, ?_, ?_, ?_⟩ <;> exact fun _ => .of_put fun _ => rfl
  · obtain ⟨hid, hname, hkeys, -, hrest⟩ := finish_eq_ok.1 h
    exact ⟨{ t with metricFields := [] }, finish_eq_ok.2 ⟨hid, hname, hkeys, rfl, hrest⟩⟩

theorem isLoose_fieldMapping : IsLoose fields Partial.finish "fieldMapping" := by
  refine isLoose_of_optional _ (fun s v => { s with fieldMapping := some (v.getD []) })
    (fun s => { s with fieldMapping := none }) rfl (fun _ => rfl) ?_ ?_ fun s t h => ?_
  · rintro ⟨id, tableName, primaryKeys, metricFields, _ | v⟩ h
    · rfl
    · cases h
  · simp only [fields, List.forall_mem_cons, List.not_mem_nil, false_implies, implies_true, and_true]
    refine ⟨?_, ?_, ?_, ?_, fun h => absurd rfl h, ?_, ?_⟩ <;> exact fun _ => .of_put fun _ => rfl
  · obtain ⟨hid, hname, hkeys, hmetrics, -, hrest⟩ := finish_eq_ok.1 h
    exact ⟨{ t with fieldMapping := [] }, finish_eq_ok.2 ⟨hid, hname, hkeys, hmetrics, rfl, hrest⟩⟩

theorem isLoose_fieldTypes : IsLoose fields Partial.finish "fieldTypes" := by
  refine isLoose_of_optional _ (fun s v => { s with fieldTypes := some (v.getD []) })
    (fun s => { s with fieldTypes := none }) rfl (fun _ => rfl) ?_ ?_ fun s t h => ?_
  · rintro ⟨id, tableName, primaryKeys, metricFields, fieldMapping, _ | v⟩ h
    · rfl
    · cases h
  · simp only [fields, List.forall_mem_cons, List.not_mem_nil, false_implies, implies_true, and_true]
    refine ⟨?_, ?_, ?_, ?_, ?_, fun h => absurd rfl h, ?_⟩ <;> exact fun _ => .of_put fun _ => rfl
  · obtain ⟨hid, hname, hkeys, hmetrics, hmapping, -, hrest⟩ := finish_eq_ok.1 h
    exact ⟨{ t with fieldTypes := [] },
      finish_eq_ok.2 ⟨hid, hname, hkeys, hmetrics, hmapping, rfl, hrest⟩⟩

theorem isLoose_timeGranularity : IsLoose fields Partial.finish "timeGranularity" := by
  refine isLoose_of_optional _ (fun s v => { s with granularity := some v })
    (fun s => { s with granularity := none }) rfl (fun _ => rfl) ?_ ?_ fun s t h => ?_
  · rintro ⟨id, tableName, primaryKeys, metricFields, fieldMapping, fieldTypes, _ | v⟩ h
    · rfl
    · cases h
  · simp only [fields, List.forall_mem_cons, List.not_mem_nil, false_implies, implies_true, and_true]
    refine ⟨?_, ?_, ?_, ?_, ?_, ?_, fun h => absurd rfl h⟩ <;> exact fun _ => .of_put fun _ => rfl
  · obtain ⟨hid, hname, hkeys, hmetrics, hmapping, htypes, -⟩ := finish_eq_ok.1 h
    exact ⟨{ t with granularity := none },
      finish_eq_ok.2 ⟨hid, hname, hkeys, hmetrics, hmapping, htypes, rfl⟩⟩

theorem readsValue_fields : ∀ f ∈ fields, ∀ s, ReadsValue (f.read s) := by
  simp only [fields, List.forall_mem_cons, List.not_mem_nil, false_implies, implies_true, and_true]
  exact ⟨readsValue_optionalField readsValue_number, readsValue_required readsValue_string,
    readsValue_emptiable (readsValue_list readsValue_string),
    readsValue_emptiable (readsValue_dictionary readsValue_string),
    readsValue_emptiable (readsValue_dictionary readsValue_string),
    readsValue_emptiable (readsValue_dictionary (readsValue_variant _)),
    readsValue_optionalField (readsValue_variant _)⟩

theorem takes_member {t : TableDefinition} (hordered : t.IsOrdered) {m : String × Json}
    (hm : m ∈ t.members) {names : List String} (hnew : m.1 ∉ names) {d : Nat} (hd : 1 < d) (l : Layout)
    (level : Nat) :
    Takes Ends (fieldByName fields m.1 (t.known names)) d (':' :: (l.gap ++ written l level m.2))
      (t.known (names ++ [m.1])) := by
  simp only [members, List.mem_append, mem_optionalMember, List.mem_cons, List.not_mem_nil, or_false,
    or_assoc] at hm
  rcases hm with ⟨n, hn, rfl⟩ | rfl | rfl | rfl | rfl | rfl | ⟨g, hg, rfl⟩
  · exact takes_optionalField (show fields.find? (·.name == "id") = some _ from rfl) (if_neg hnew)
      (reads_int64 n d) (notNull_ofInt64 n) (by simp [known, hn]) l level
  · exact takes_required (show fields.find? (·.name == "tableName") = some _ from rfl) (if_neg hnew)
      (reads_string t.tableName d) (by simp [known]) l level
  · exact takes_emptiable (show fields.find? (·.name == "primaryKeys") = some _ from rfl)
      (if_neg hnew) (reads_strings hd t.primaryKeys) (notNull_array _) (by simp [known]) l level
  · exact takes_emptiable (show fields.find? (·.name == "metricFields") = some _ from rfl)
      (if_neg hnew) (reads_dictionaryJson hd hordered.metricFields fun s => reads_string s (d - 1))
      (notNull_object _) (by simp [known]) l level
  · exact takes_emptiable (show fields.find? (·.name == "fieldMapping") = some _ from rfl)
      (if_neg hnew) (reads_dictionaryJson hd hordered.fieldMapping fun s => reads_string s (d - 1))
      (notNull_object _) (by simp [known]) l level
  · exact takes_emptiable (show fields.find? (·.name == "fieldTypes") = some _ from rfl)
      (if_neg hnew) (reads_dictionaryJson hd hordered.fieldTypes fun f => reads_fieldType f (d - 1))
      (notNull_object _) (by simp [known]) l level
  · exact takes_optionalField (show fields.find? (·.name == "timeGranularity") = some _ from rfl)
      (if_neg hnew) (reads_granularity g d) (notNull_string _) (by simp [known, hg]) l level

/-- The dictionaries read so far stand in the order of their keys. -/
structure Partial.IsOrdered (p : Partial) : Prop where
  metricFields : ∀ ms ∈ p.metricFields, Ordered ms
  fieldMapping : ∀ ms ∈ p.fieldMapping, Ordered ms
  fieldTypes : ∀ ms ∈ p.fieldTypes, Ordered ms

theorem ensures_ordered : reader.Ensures IsOrdered := by
  refine ensures_record (P := Partial.IsOrdered) ?_
    ⟨fun _ h => (by cases h), fun _ h => (by cases h), fun _ h => (by cases h)⟩ fun p t hp ht => ?_
  · simp only [fields, List.forall_mem_cons, List.not_mem_nil, false_implies, implies_true, and_true]
    refine ⟨?_, ?_, ?_, ?_, ?_, ?_, ?_⟩
    · exact fun s hs => .after fun _ => .pure ⟨hs.metricFields, hs.fieldMapping, hs.fieldTypes⟩
    · exact fun s hs => .after fun _ => .pure ⟨hs.metricFields, hs.fieldMapping, hs.fieldTypes⟩
    · exact fun s hs => .after fun _ => .pure ⟨hs.metricFields, hs.fieldMapping, hs.fieldTypes⟩
    · exact fun s hs => ensures_emptiable fun ms hms =>
        ⟨fun _ h => Option.some.inj h ▸ hms, hs.fieldMapping, hs.fieldTypes⟩
    · exact fun s hs => ensures_emptiable fun ms hms =>
        ⟨hs.metricFields, fun _ h => Option.some.inj h ▸ hms, hs.fieldTypes⟩
    · exact fun s hs => ensures_emptiable fun ms hms =>
        ⟨hs.metricFields, hs.fieldMapping, fun _ h => Option.some.inj h ▸ hms⟩
    · exact fun s hs => .after fun _ => .pure ⟨hs.metricFields, hs.fieldMapping, hs.fieldTypes⟩
  · obtain ⟨-, -, -, hmetrics, hmapping, htypes, -⟩ := finish_eq_ok.1 ht
    exact ⟨hmetrics ▸ ordered_getD hp.metricFields, hmapping ▸ ordered_getD hp.fieldMapping,
      htypes ▸ ordered_getD hp.fieldTypes⟩

/-- Table definitions as documents. -/
def form : Form TableDefinition Partial where
  name := "TableDefinition"
  fields := fields
  empty := {}
  finish := Partial.finish
  members := members
  known := known
  ordered := IsOrdered
  readsValue := readsValue_fields
  loose := by
    show ∀ key ∈ ["id", "primaryKeys", "metricFields", "fieldMapping", "fieldTypes", "timeGranularity"],
      IsLoose fields Partial.finish key
    simp only [List.forall_mem_cons, List.not_mem_nil, false_implies, implies_true, and_true]
    exact ⟨isLoose_id, isLoose_primaryKeys, isLoose_metricFields, isLoose_fieldMapping,
      isLoose_fieldTypes, isLoose_timeGranularity⟩
  ensures_ordered := ensures_ordered
  known_nil _ := rfl
  keys_nodup t := by
    have hsub : (t.members.map (·.1)).Sublist (fields.map (·.name)) := by
      simp only [members, List.map_append]
      exact ((keys_optionalMember _ _ _).append (.refl _)).append (keys_optionalMember _ _ _)
    exact hsub.nodup (by decide)
  sorted_values t hordered m hm := by
    simp only [members, List.mem_append, mem_optionalMember, List.mem_cons, List.not_mem_nil, or_false,
      or_assoc] at hm
    rcases hm with ⟨n, hn, rfl⟩ | rfl | rfl | rfl | rfl | rfl | ⟨g, hg, rfl⟩
    · rfl
    · rfl
    · exact sorted_strings _
    · exact sorted_dictionaryJson hordered.metricFields sorted_string
    · exact sorted_dictionaryJson hordered.fieldMapping sorted_string
    · exact sorted_dictionaryJson hordered.fieldTypes fun f => sorted_string f.name
    · rfl
  takes_member t hordered m hm names hnew d hd := takes_member hordered hm hnew hd
  finish_known t names hnames := by
    simp only [members, List.map_append, List.mem_append, mem_keys_optionalMember] at hnames
    exact finish_eq_ok.2 ⟨getD_known (by simp [hnames]), if_pos (by simp [hnames]),
      congrArg (Option.getD · []) (if_pos (by simp [hnames])),
      congrArg (Option.getD · []) (if_pos (by simp [hnames])),
      congrArg (Option.getD · []) (if_pos (by simp [hnames])),
      congrArg (Option.getD · []) (if_pos (by simp [hnames])), getD_known (by simp [hnames])⟩

end TableDefinition

/-! ## Configuration entries -/

namespace Configuration

/-- The members of an entry as JSON. -/
def members (c : Configuration) : List (String × Json) :=
  optionalMember "id" ofInt64 c.id ++ [("name", .string c.name)]
    ++ optionalMember "configType" .string c.configType
    ++ optionalMember "configValue" .string c.configValue
    ++ optionalMember "description" .string c.description

/-- What is known of an entry when the members of some names have been read. -/
def known (c : Configuration) (names : List String) : Partial where
  id := if "id" ∈ names then some c.id else none
  name := if "name" ∈ names then some c.name else none
  configType := if "configType" ∈ names then some c.configType else none
  configValue := if "configValue" ∈ names then some c.configValue else none
  description := if "description" ∈ names then some c.description else none

theorem finish_eq_ok {p : Partial} {c : Configuration} :
    p.finish = .ok c ↔ p.id.getD none = c.id ∧ p.name = some c.name ∧
      p.configType.getD none = c.configType ∧ p.configValue.getD none = c.configValue ∧
      p.description.getD none = c.description := by
  obtain ⟨id, name, configType, configValue, description⟩ := p
  obtain ⟨id', name', configType', configValue', description'⟩ := c
  cases name <;> simp [Partial.finish, bind, Except.bind, pure, Except.pure]

theorem isLoose_id : IsLoose fields Partial.finish "id" := by
  refine isLoose_of_optional _ (fun s v => { s with id := some v }) (fun s => { s with id := none })
    rfl (fun _ => rfl) ?_ ?_ fun s c h => ?_
  · rintro ⟨_ | v⟩ h
    · rfl
    · cases h
  · simp only [fields, List.forall_mem_cons, List.not_mem_nil, false_implies, implies_true, and_true]
    refine ⟨fun h => absurd rfl h, ?_, ?_, ?_, ?_⟩ <;> exact fun _ => .of_put fun _ => rfl
  · obtain ⟨-, hrest⟩ := finish_eq_ok.1 h
    exact ⟨{ c with id := none }, finish_eq_ok.2 ⟨rfl, hrest⟩⟩

theorem isLoose_configType : IsLoose fields Partial.finish "configType" := by
  refine isLoose_of_optional _ (fun s v => { s with configType := some v })
    (fun s => { s with configType := none }) rfl (fun _ => rfl) ?_ ?_ fun s c h => ?_
  · rintro ⟨id, name, _ | v⟩ h
    · rfl
    · cases h
  · simp only [fields, List.forall_mem_cons, List.not_mem_nil, false_implies, implies_true, and_true]
    refine ⟨?_, ?_, fun h => absurd rfl h, ?_, ?_⟩ <;> exact fun _ => .of_put fun _ => rfl
  · obtain ⟨hid, hname, -, hrest⟩ := finish_eq_ok.1 h
    exact ⟨{ c with configType := none }, finish_eq_ok.2 ⟨hid, hname, rfl, hrest⟩⟩

theorem isLoose_configValue : IsLoose fields Partial.finish "configValue" := by
  refine isLoose_of_optional _ (fun s v => { s with configValue := some v })
    (fun s => { s with configValue := none }) rfl (fun _ => rfl) ?_ ?_ fun s c h => ?_
  · rintro ⟨id, name, configType, _ | v⟩ h
    · rfl
    · cases h
  · simp only [fields, List.forall_mem_cons, List.not_mem_nil, false_implies, implies_true, and_true]
    refine ⟨?_, ?_, ?_, fun h => absurd rfl h, ?_⟩ <;> exact fun _ => .of_put fun _ => rfl
  · obtain ⟨hid, hname, htype, -, hrest⟩ := finish_eq_ok.1 h
    exact ⟨{ c with configValue := none }, finish_eq_ok.2 ⟨hid, hname, htype, rfl, hrest⟩⟩

theorem isLoose_description : IsLoose fields Partial.finish "description" := by
  refine isLoose_of_optional _ (fun s v => { s with description := some v })
    (fun s => { s with description := none }) rfl (fun _ => rfl) ?_ ?_ fun s c h => ?_
  · rintro ⟨id, name, configType, configValue, _ | v⟩ h
    · rfl
    · cases h
  · simp only [fields, List.forall_mem_cons, List.not_mem_nil, false_implies, implies_true, and_true]
    refine ⟨?_, ?_, ?_, ?_, fun h => absurd rfl h⟩ <;> exact fun _ => .of_put fun _ => rfl
  · obtain ⟨hid, hname, htype, hvalue, -⟩ := finish_eq_ok.1 h
    exact ⟨{ c with description := none }, finish_eq_ok.2 ⟨hid, hname, htype, hvalue, rfl⟩⟩

theorem readsValue_fields : ∀ f ∈ fields, ∀ s, ReadsValue (f.read s) := by
  simp only [fields, List.forall_mem_cons, List.not_mem_nil, false_implies, implies_true, and_true]
  exact ⟨readsValue_optionalField readsValue_number, readsValue_required readsValue_string,
    readsValue_optionalField readsValue_string, readsValue_optionalField readsValue_string,
    readsValue_optionalField readsValue_string⟩

theorem takes_member {c : Configuration} {m : String × Json} (hm : m ∈ c.members)
    {names : List String} (hnew : m.1 ∉ names) {d : Nat} (l : Layout) (level : Nat) :
    Takes Ends (fieldByName fields m.1 (c.known names)) d (':' :: (l.gap ++ written l level m.2))
      (c.known (names ++ [m.1])) := by
  simp only [members, List.mem_append, mem_optionalMember, List.mem_singleton, or_assoc] at hm
  rcases hm with ⟨n, hn, rfl⟩ | rfl | ⟨s, hs, rfl⟩ | ⟨s, hs, rfl⟩ | ⟨s, hs, rfl⟩
  · exact takes_optionalField (show fields.find? (·.name == "id") = some _ from rfl) (if_neg hnew)
      (reads_int64 n d) (notNull_ofInt64 n) (by simp [known, hn]) l level
  · exact takes_required (show fields.find? (·.name == "name") = some _ from rfl) (if_neg hnew)
      (reads_string c.name d) (by simp [known]) l level
  · exact takes_optionalField (show fields.find? (·.name == "configType") = some _ from rfl)
      (if_neg hnew) (reads_string s d) (notNull_string s) (by simp [known, hs]) l level
  · exact takes_optionalField (show fields.find? (·.name == "configValue") = some _ from rfl)
      (if_neg hnew) (reads_string s d) (notNull_string s) (by simp [known, hs]) l level
  · exact takes_optionalField (show fields.find? (·.name == "description") = some _ from rfl)
      (if_neg hnew) (reads_string s d) (notNull_string s) (by simp [known, hs]) l level

/-- Configuration entries as documents. -/
def form : Form Configuration Partial where
  name := "Configuration"
  fields := fields
  empty := {}
  finish := Partial.finish
  members := members
  known := known
  ordered _ := True
  readsValue := readsValue_fields
  loose := by
    show ∀ key ∈ ["id", "configType", "configValue", "description"], IsLoose fields Partial.finish key
    simp only [List.forall_mem_cons, List.not_mem_nil, false_implies, implies_true, and_true]
    exact ⟨isLoose_id, isLoose_configType, isLoose_configValue, isLoose_description⟩
  ensures_ordered := fun _ _ _ _ => trivial
  known_nil _ := rfl
  keys_nodup c := by
    have hsub : (c.members.map (·.1)).Sublist (fields.map (·.name)) := by
      simp only [members, List.map_append]
      exact ((((keys_optionalMember _ _ _).append (.refl _)).append (keys_optionalMember _ _ _)).append
        (keys_optionalMember _ _ _)).append (keys_optionalMember _ _ _)
    exact hsub.nodup (by decide)
  sorted_values c _ m hm := by
    simp only [members, List.mem_append, mem_optionalMember, List.mem_singleton, or_assoc] at hm
    rcases hm with ⟨n, hn, rfl⟩ | rfl | ⟨s, hs, rfl⟩ | ⟨s, hs, rfl⟩ | ⟨s, hs, rfl⟩ <;> rfl
  takes_member c _ m hm names hnew d _ := takes_member hm hnew
  finish_known c names hnames := by
    simp only [members, List.map_append, List.mem_append, mem_keys_optionalMember] at hnames
    exact finish_eq_ok.2 ⟨getD_known (by simp [hnames]), if_pos (by simp [hnames]),
      getD_known (by simp [hnames]), getD_known (by simp [hnames]), getD_known (by simp [hnames])⟩

end Configuration

/-! ## All of them -/

namespace Resource

/-- **Documents of resources survive the wire.** For each kind, what is sent for a resource is read as
that resource, so is the listing of any number of them, null in a field that may be left out of an
accepted object says the same as its absence, and whatever has been read survives in its turn. -/
theorem documents_survive :
    Survives metrics Metric.form ["id", "dataPath", "fieldMappings"] ∧
      Survives tables TableDefinition.form
        ["id", "primaryKeys", "metricFields", "fieldMapping", "fieldTypes", "timeGranularity"] ∧
      Survives configurations Configuration.form ["id", "configType", "configValue", "description"] :=
  ⟨Form.survives rfl (fun _ => rfl) fun _ => rfl, Form.survives rfl (fun _ => rfl) fun _ => rfl,
    Form.survives rfl (fun _ => rfl) fun _ => rfl⟩

end Resource

end DataClient
