import Mathlib.Data.List.Basic
import Mathlib.Tactic.SplitIfs
import ModuleAtlas.Catalog.Extraction

/-!
# Entries of joined records

The entry of a file collects the records of its script.  Each list of the entry
takes records of one variant only, in order, so the entry of two scripts put
together has the lists of both, one behind the other, and records of different
variants may change places.

The kind of the file is the first in a ranking for which the entry shows
something.  What one of two scripts shows the two together show as well, and
nothing else, so their kind is the higher one of the two.
-/

namespace ModuleAtlas

/-- Nothing that is shown comes before the first thing that is shown. -/
theorem idxOf_find?_le
    {Item : Type} [DecidableEq Item] {ranking : List Item} {shows : Item → Bool}
    {first item : Item} (found : ranking.find? shows = some first) (shown : shows item = true) :
    ranking.idxOf first ≤ ranking.idxOf item := by
  obtain ⟨firstShown, before, behind, order, earlier⟩ := List.find?_eq_some_iff_append.mp found
  have notBefore : ∀ other, shows other = true → other ∉ before := by
    intro other otherShown member
    have hidden := earlier other member
    rw [otherShown] at hidden
    cases hidden
  rw [order, List.idxOf_append_of_notMem (notBefore first firstShown),
    List.idxOf_append_of_notMem (notBefore item shown), List.idxOf_cons_self]
  omega

theorem isEmpty_append {Item : Type} (left right : List Item) :
    (left ++ right).isEmpty = (left.isEmpty && right.isEmpty) := by
  cases left with
  | nil => rfl
  | cons first rest => rfl

theorem not_isEmpty_of_sublist
    {Item : Type} {fewer more : List Item} (sublist : fewer.Sublist more)
    (shown : (!fewer.isEmpty) = true) : (!more.isEmpty) = true := by
  rw [Bool.not_eq_true', List.isEmpty_eq_false_iff] at shown ⊢
  rintro rfl
  exact shown (List.sublist_nil.mp sublist)

namespace Script.Record

/-- What a record is a fact about. -/
inductive Variant where
  | imported
  | exported
  | declaredFunction
  | declaredClass
  | declaredVariable
  | called
  deriving DecidableEq, Repr

/-- What the record is a fact about. -/
def variant : Record → Variant
  | .imported _ => .imported
  | .exported _ => .exported
  | .declaredFunction _ => .declaredFunction
  | .declaredClass _ => .declaredClass
  | .declaredVariable _ => .declaredVariable
  | .called _ => .called

/-- What is read from records of one variant depends on no others. -/
theorem filterMap_filter_variant
    {Item : Type} {read? : Record → Option Item} {variant : Variant}
    (only : ∀ record, record.variant ≠ variant → read? record = none) (records : List Record) :
    (records.filter fun record => record.variant = variant).filterMap read? =
      records.filterMap read? := by
  induction records with
  | nil => rfl
  | cons record rest inductionHypothesis =>
      by_cases same : record.variant = variant
      · rw [List.filter_cons_of_pos (by simp [same]), List.filterMap_cons, List.filterMap_cons,
          inductionHypothesis]
      · rw [List.filter_cons_of_neg (by simp [same]), List.filterMap_cons, only record same,
          inductionHypothesis]

/-- Each list of an entry reads records of one variant. -/
structure ReadAsVariant (record : Record) : Prop where
  imports : record.variant ≠ .imported → record.reference? = none
  exports : record.variant ≠ .exported → record.export? = none
  functions : record.variant ≠ .declaredFunction → record.function? = none
  classes : record.variant ≠ .declaredClass → record.class? = none
  components : record.variant ≠ .declaredVariable → record.component? = none
  routes : record.variant ≠ .called → record.route? = none
  schemas : record.variant ≠ .called → record.schema? = none

theorem readAsVariant (record : Record) : record.ReadAsVariant := by
  cases record with
  | _ => constructor <;> first | exact fun _ => rfl | exact fun other => absurd rfl other

end Script.Record

namespace Entry

open Script (Record)

/-! ## Lists -/

/-- The lists of an entry are those of two others, one behind the other. -/
structure Joins (whole first second : Entry) : Prop where
  imports : whole.imports = first.imports ++ second.imports
  exports : whole.exports = first.exports ++ second.exports
  functions : whole.functions = first.functions ++ second.functions
  classes : whole.classes = first.classes ++ second.classes
  routes : whole.routes = first.routes ++ second.routes
  schemas : whole.schemas = first.schemas ++ second.schemas
  components : whole.components = first.components ++ second.components

/-- The number of things in the lists of an entry. -/
def listed (entry : Entry) : Nat :=
  entry.imports.length + entry.exports.length + entry.functions.length + entry.classes.length +
    entry.routes.length + entry.schemas.length + entry.components.length

theorem joins_ofRecords (path : String) (left right : List Record) :
    (ofRecords path (left ++ right)).Joins (ofRecords path left) (ofRecords path right) where
  imports := List.filterMap_append
  exports := List.filterMap_append
  functions := List.filterMap_append
  classes := List.filterMap_append
  routes := List.filterMap_append
  schemas := List.filterMap_append
  components := List.filterMap_append

theorem route?_or_schema?_eq_none (record : Record) :
    record.route? = none ∨ record.schema? = none := by
  cases record with
  | called value =>
      by_cases schema : value.propertyName = "Schema"
      · have noRoute : value.propertyName ∉ Record.routeMethods := by
          rw [schema]
          decide
        exact Or.inl (by simp [Record.route?, noRoute])
      · exact Or.inr (by simp [Record.schema?, schema])
  | _ => exact Or.inl rfl

/-- A record adds to at most one list of the entry. -/
theorem listed_ofRecords_singleton (path : String) (record : Record) :
    (ofRecords path [record]).listed ≤ 1 := by
  have counted : ∀ {Item : Type} (read? : Record → Option Item),
      ([record].filterMap read?).length = if (read? record).isSome then 1 else 0 := by
    intro Item read?
    cases shown : read? record with
    | none => simp [shown]
    | some item => simp [shown]
  have apart := route?_or_schema?_eq_none record
  simp only [listed, ofRecords, counted]
  cases record with
  | _ =>
      grind [Record.reference?, Record.export?, Record.function?, Record.class?,
        Record.component?, Record.route?, Record.schema?]

/-! ## Kinds -/

/-- The kinds that files of a name can have, the higher before the lower ones. -/
def ranking (name : String) : List FileKind :=
  [.server, .model, .component] ++ (kindOfName? name).toList ++ [.library, .unknown]

/-- Whether the entry shows what makes a file a file of the given kind. -/
def shows (entry : Entry) : FileKind → Bool
  | .server => !entry.routes.isEmpty
  | .model => !entry.schemas.isEmpty
  | .component => !entry.components.isEmpty
  | .library => !(entry.functions.isEmpty && entry.classes.isEmpty)
  | _ => true

theorem kindOfName?_mem {name : String} {kind : FileKind} (found : kindOfName? name = some kind) :
    kind ∈ [FileKind.packageConfiguration, .configuration, .test] := by
  unfold kindOfName? at found
  split at found
  · cases found
    decide
  · split at found
    · cases found
      decide
    · split at found
      · cases found
        decide
      · cases found

theorem shows_of_kindOfName? {name : String} {kind : FileKind} (entry : Entry)
    (found : kindOfName? name = some kind) : entry.shows kind = true := by
  have possible := kindOfName?_mem found
  simp only [List.mem_cons, List.not_mem_nil, or_false] at possible
  rcases possible with rfl | rfl | rfl
  · rfl
  · rfl
  · rfl

@[simp]
theorem shows_server (entry : Entry) : entry.shows .server = !entry.routes.isEmpty := rfl

@[simp]
theorem shows_model (entry : Entry) : entry.shows .model = !entry.schemas.isEmpty := rfl

@[simp]
theorem shows_component (entry : Entry) :
    entry.shows .component = !entry.components.isEmpty := rfl

@[simp]
theorem shows_library (entry : Entry) :
    entry.shows .library = !(entry.functions.isEmpty && entry.classes.isEmpty) := rfl

@[simp]
theorem shows_unknown (entry : Entry) : entry.shows .unknown = true := rfl

/-- The kind of a file is the highest for which its entry shows something. -/
theorem find?_ranking (path : String) (records : List Record) :
    (ranking (Path.lastComponent path)).find? (ofRecords path records).shows =
      some (ofRecords path records).kind := by
  have kind : (ofRecords path records).kind =
      kindOf (Path.lastComponent path) (ofRecords path records).routes
        (ofRecords path records).schemas (ofRecords path records).components
        (ofRecords path records).functions (ofRecords path records).classes := rfl
  rw [kind]
  generalize ofRecords path records = entry
  unfold ranking kindOf
  cases forced : kindOfName? (Path.lastComponent path) with
  | some kind =>
      have shown : entry.shows kind = true := shows_of_kindOfName? entry forced
      dsimp only
      split_ifs with routes schemas components
      · simp [routes]
      · simp [routes, schemas]
      · simp [routes, schemas, components]
      · simp [routes, schemas, components, shown]
  | none =>
      dsimp only
      split_ifs with routes schemas components undeclared
      · simp [routes]
      · simp [routes, schemas]
      · simp [routes, schemas, components]
      · simp [routes, schemas, components, undeclared]
      · simp [routes, schemas, components, undeclared]

/-- The kind of a file ranks at least as high as every kind of which the file
shows something. -/
theorem idxOf_kind_le
    {path : String} {records : List Record} {kind : FileKind}
    (shown : (ofRecords path records).shows kind = true) :
    (ranking (Path.lastComponent path)).idxOf (ofRecords path records).kind ≤
      (ranking (Path.lastComponent path)).idxOf kind :=
  idxOf_find?_le (find?_ranking path records) shown

theorem shows_kind (path : String) (records : List Record) :
    (ofRecords path records).shows (ofRecords path records).kind = true :=
  List.find?_some (find?_ranking path records)

theorem kind_mem_ranking (path : String) (records : List Record) :
    (ofRecords path records).kind ∈ ranking (Path.lastComponent path) :=
  List.mem_of_find?_eq_some (find?_ranking path records)

theorem shows_append (path : String) (left right : List Record) (kind : FileKind) :
    (ofRecords path (left ++ right)).shows kind =
      ((ofRecords path left).shows kind || (ofRecords path right).shows kind) := by
  have joins := joins_ofRecords path left right
  cases kind with
  | server => simp only [shows_server, joins.routes, isEmpty_append, Bool.not_and]
  | model => simp only [shows_model, joins.schemas, isEmpty_append, Bool.not_and]
  | component => simp only [shows_component, joins.components, isEmpty_append, Bool.not_and]
  | library =>
      simp only [shows_library, joins.functions, joins.classes, isEmpty_append, Bool.not_and]
      ac_rfl
  | _ => rfl

theorem shows_of_sublist
    {path : String} {fewer more : List Record} {kind : FileKind}
    (sublist : fewer.Sublist more) (shown : (ofRecords path fewer).shows kind = true) :
    (ofRecords path more).shows kind = true := by
  cases kind with
  | server => exact not_isEmpty_of_sublist (sublist.filterMap Record.route?) shown
  | model => exact not_isEmpty_of_sublist (sublist.filterMap Record.schema?) shown
  | component => exact not_isEmpty_of_sublist (sublist.filterMap Record.component?) shown
  | library =>
      rw [shows_library, Bool.not_and, Bool.or_eq_true] at shown ⊢
      rcases shown with functions | classes
      · exact Or.inl (not_isEmpty_of_sublist (sublist.filterMap Record.function?) functions)
      · exact Or.inr (not_isEmpty_of_sublist (sublist.filterMap Record.class?) classes)
  | _ => rfl

/-- The one of two kinds that comes first in a ranking. -/
def higher (ranking : List FileKind) (first second : FileKind) : FileKind :=
  if ranking.idxOf first ≤ ranking.idxOf second then first else second

theorem kind_eq_of_shows
    {path : String} {records : List Record} {kind : FileKind}
    (shown : (ofRecords path records).shows kind = true)
    (above : (ranking (Path.lastComponent path)).idxOf kind ≤
      (ranking (Path.lastComponent path)).idxOf (ofRecords path records).kind) :
    (ofRecords path records).kind = kind :=
  (List.idxOf_inj (kind_mem_ranking path records)).mp
    (Nat.le_antisymm (idxOf_kind_le shown) above)

theorem kind_append (path : String) (left right : List Record) :
    (ofRecords path (left ++ right)).kind =
      higher (ranking (Path.lastComponent path)) (ofRecords path left).kind
        (ofRecords path right).kind := by
  have aboveLeft :
      (ranking (Path.lastComponent path)).idxOf (ofRecords path (left ++ right)).kind ≤
        (ranking (Path.lastComponent path)).idxOf (ofRecords path left).kind := by
    apply idxOf_kind_le
    rw [shows_append, shows_kind, Bool.true_or]
  have aboveRight :
      (ranking (Path.lastComponent path)).idxOf (ofRecords path (left ++ right)).kind ≤
        (ranking (Path.lastComponent path)).idxOf (ofRecords path right).kind := by
    apply idxOf_kind_le
    rw [shows_append, shows_kind, Bool.or_true]
  -- One of the two shows the kind of the whole, so its own kind is no lower.
  have shown := shows_kind path (left ++ right)
  rw [shows_append, Bool.or_eq_true] at shown
  unfold higher
  rcases shown with inLeft | inRight
  · rw [kind_eq_of_shows inLeft aboveLeft, if_pos aboveRight]
  · rw [kind_eq_of_shows inRight aboveRight]
    split_ifs with atLeast
    · exact (List.idxOf_inj (kind_mem_ranking path (left ++ right))).mp
        (Nat.le_antisymm aboveLeft atLeast)
    · rfl

/-! ## Variants -/

theorem ofRecords_eq_of_variants
    (path : String) {left right : List Record}
    (same : ∀ variant : Record.Variant,
      left.filter (fun record => record.variant = variant) =
        right.filter fun record => record.variant = variant) :
    ofRecords path left = ofRecords path right := by
  have read : ∀ {Item : Type} {read? : Record → Option Item} (variant : Record.Variant),
      (∀ record, record.variant ≠ variant → read? record = none) →
        left.filterMap read? = right.filterMap read? := by
    intro Item read? variant only
    rw [← Record.filterMap_filter_variant only left, same variant,
      Record.filterMap_filter_variant only right]
  unfold ofRecords
  rw [read .imported fun record => record.readAsVariant.imports,
    read .exported fun record => record.readAsVariant.exports,
    read .declaredFunction fun record => record.readAsVariant.functions,
    read .declaredClass fun record => record.readAsVariant.classes,
    read .declaredVariable fun record => record.readAsVariant.components,
    read .called fun record => record.readAsVariant.routes,
    read .called fun record => record.readAsVariant.schemas]

/-- The entry of joined records has the lists of both, one behind the other, and
the higher of both kinds. No record adds to two lists, more records never make
the kind a lower one, and only the order among records of one variant matters. -/
theorem ofRecords_joins_and_ranks (path : String) :
    (∀ left right,
      (ofRecords path (left ++ right)).Joins (ofRecords path left) (ofRecords path right) ∧
        (ofRecords path (left ++ right)).kind =
          higher (ranking (Path.lastComponent path)) (ofRecords path left).kind
            (ofRecords path right).kind) ∧
      (∀ records, (ofRecords path records).kind ∈ ranking (Path.lastComponent path)) ∧
      (∀ record, (ofRecords path [record]).listed ≤ 1) ∧
      (∀ fewer more : List Record, fewer.Sublist more →
        (ranking (Path.lastComponent path)).idxOf (ofRecords path more).kind ≤
          (ranking (Path.lastComponent path)).idxOf (ofRecords path fewer).kind) ∧
      ∀ left right : List Record,
        (∀ variant : Record.Variant,
          left.filter (fun record => record.variant = variant) =
            right.filter fun record => record.variant = variant) →
          ofRecords path left = ofRecords path right := by
  refine ⟨?_, kind_mem_ranking path, listed_ofRecords_singleton path, ?_, ?_⟩
  · intro left right
    exact ⟨joins_ofRecords path left right, kind_append path left right⟩
  · intro fewer more sublist
    exact idxOf_kind_le (shows_of_sublist sublist (shows_kind path fewer))
  · intro left right same
    exact ofRecords_eq_of_variants path same

/-- A route in a file whose name makes it a configuration. -/
theorem ofRecords_joins_and_ranks_configuration :
    let path := "server/config.js"
    let function : Record := .declaredFunction "start"
    let route : Record := .called ⟨some "app", "get", some "/", false⟩
    (ofRecords path [function]).kind = .configuration ∧
      (ofRecords path [function, route]).kind = .server ∧
      [function].Sublist [function, route] ∧
      (ranking (Path.lastComponent path)).idxOf (ofRecords path [function, route]).kind ≤
        (ranking (Path.lastComponent path)).idxOf (ofRecords path [function]).kind ∧
      (∀ variant : Record.Variant,
        [function, route].filter (fun record => record.variant = variant) =
          [route, function].filter fun record => record.variant = variant) ∧
      ofRecords path [function, route] = ofRecords path [route, function] := by
  intro path function route
  have sublist : [function].Sublist [function, route] := by
    exact List.Sublist.cons_cons function (List.nil_sublist [route])
  have same : ∀ variant : Record.Variant,
      [function, route].filter (fun record => record.variant = variant) =
        [route, function].filter fun record => record.variant = variant := by
    intro variant
    cases variant with
    | _ => rfl
  obtain ⟨_, _, _, rises, sorted⟩ := ofRecords_joins_and_ranks path
  refine ⟨?_, ?_, sublist, rises _ _ sublist, same, sorted _ _ same⟩
  · decide +kernel
  · decide +kernel

end Entry

end ModuleAtlas
