import Mathlib.Data.List.Forall2
import DataClient.Proofs.Arrow.Sound

/-!
# Columns and the types of their fields

Loading goes along the schema, so a column that has been read is of the type of its field
(`readPayload_typed`), and one whose type has a width is an array of values of that width
(`Vector.OfType`). A column of a type that is made of others refers to other vectors
(`Vector.NestedOf`).
-/

set_option autoImplicit false

namespace DataClient.Arrow

open Outcome

/-- A vector of a type; if the type has a width, it keeps values of that width. -/
structure Vector.OfType (type : DataType) (v : Vector) : Prop where
  type_eq : v.type = type
  fixed : ∀ width, Load.fixedWidth? type = some width →
    ∃ shape data, v = .fixed type shape width data

/-- The type of nulls, and the types whose values are made of values of others. -/
def DataType.isNested : DataType → Bool
  | .null | .list .. | .largeList .. | .fixedSizeList .. | .struct .. | .map .. | .union ..
  | .runEndEncoded .. | .dictionary .. => true
  | _ => false

/-- A vector of a type in which the values stand in other vectors, if there are any. -/
structure Vector.NestedOf (type : DataType) (v : Vector) : Prop where
  type_eq : v.type = type
  nested : match v with
    | .boolean .. | .fixed .. | .runsOfBytes .. | .views .. => False
    | _ => True

namespace Load

section Types

variable {s : Source}

theorem nestedOf_listOf (type : DataType) (width : Nat) (item : FieldInfo) (items : Load Vector) :
    Ensures (listOf s type width item items) (Vector.NestedOf type) :=
  .skip fun _ => .skip fun _ => .skip fun _ => .skip fun _ => .skip fun _ =>
    .check fun _ => .check fun _ => .pure ⟨rfl, trivial⟩

theorem nestedOf_structOf (type : DataType) (length : Nat) (nulls : Int) (bitmap : ByteArray)
    (fields : List (FieldInfo × Vector)) :
    Ensures (structOf type length nulls bitmap fields) (Vector.NestedOf type) := by
  unfold structOf
  refine .skip fun _ => ?_
  cases fields with
  | nil => exact .pure ⟨rfl, trivial⟩
  | cons head rest => exact .check fun _ => .check fun _ => .check fun _ => .pure ⟨rfl, trivial⟩

/-- **What is loaded for a type that is made of others refers to other vectors.** The cases are those of
the type; no check of loading matters here. -/
theorem nestedOf_vector (info : FieldInfo) {type : DataType} (h : type.isNested = true) :
    Ensures (vector s info type) (Vector.NestedOf type) := by
  cases type with
  | null =>
    rw [vector]
    refine .skip fun p => ?_
    split
    · exact .skip fun _ => .check fun _ => .pure ⟨rfl, trivial⟩
    · exact .refuse _
  | list item type => exact nestedOf_listOf _ _ _ _
  | largeList item type => exact nestedOf_listOf _ _ _ _
  | fixedSizeList item type size =>
    rw [vector]
    exact .skip fun _ => .skip fun _ => .skip fun _ => .skip fun _ => .check fun _ =>
      .check fun _ => .check fun _ => .pure ⟨rfl, trivial⟩
  | struct fields =>
    rw [vector]
    exact .skip fun _ => .skip fun _ => .skip fun _ => nestedOf_structOf _ _ _ _ _
  | map entries type sorted =>
    rw [vector]
    refine (nestedOf_listOf _ _ _ _).bind fun loaded hloaded => ?_
    -- The entries of a map are loaded as a list of the type of the map.
    split
    · exact .pure ⟨hloaded.type_eq, trivial⟩
    · exact .refuse _
  | union variants dense =>
    rw [vector]
    refine .skip fun _ => ?_
    dsimp -zeta only
    extract_lets goOn
    have hgoOn : Ensures (goOn ()) (Vector.NestedOf (.union variants dense)) := by
      refine .skip fun numbers => .check fun _ => ?_
      extract_lets build
      have hbuild offsets : Ensures (build offsets) (Vector.NestedOf (.union variants dense)) :=
        .skip fun _ => .check fun _ => .pure ⟨rfl, trivial⟩
      split
      · exact .skip fun _ => .check fun _ => hbuild _
      · exact hbuild none
    split
    · exact .skip fun _ => hgoOn
    · exact hgoOn
  | runEndEncoded ends endsType values valuesType =>
    rw [vector]
    refine .skip fun _ => .skip fun loadedEnds => .skip fun _ => ?_
    split
    · exact .check fun _ => .check fun _ => .check fun _ => .pure ⟨rfl, trivial⟩
    · exact .refuse _
  | dictionary signed width values =>
    rw [vector, keys]
    refine .skip fun _ => .skip fun _ => .skip fun _ => ?_
    split
    · exact .refuse _
    · exact .skip fun _ => .check fun _ => .check fun _ => .check fun _ => .pure ⟨rfl, trivial⟩
  | _ => cases h

theorem ofType_fixed (type : DataType) : Ensures (fixed s type) (Vector.OfType type) := by
  unfold fixed
  refine .skip fun _ => .skip fun _ => .skip fun _ => ?_
  split
  · exact .refuse _
  · rename_i width hwidth
    refine .skip fun shape => .check fun _ => .pure ⟨rfl, fun width' hwidth' => ?_⟩
    obtain rfl : width = width' := Option.some.inj (hwidth.symm.trans hwidth')
    exact ⟨shape, _, rfl⟩

/-- A type that has no width asks for nothing but itself. -/
theorem Ensures.ofType {type : DataType} {x : Load Vector} (hnone : fixedWidth? type = none)
    (hx : Ensures x fun v => v.type = type) : Ensures x (Vector.OfType type) :=
  hx.imp fun _ h => ⟨h, fun _ hwidth => nomatch hnone.symm.trans hwidth⟩

/-- **What is loaded for a type is of that type.** -/
theorem ofType_vector (info : FieldInfo) (type : DataType) :
    Ensures (vector s info type) (Vector.OfType type) := by
  cases type with
  | boolean =>
    rw [vector]
    exact .ofType rfl (.skip fun _ => .skip fun _ => .skip fun _ => .skip fun _ =>
      .check fun _ => .pure rfl)
  | utf8 | largeUtf8 | binary | largeBinary =>
    rw [vector]
    exact .ofType rfl (.skip fun _ => .skip fun _ => .skip fun _ => .skip fun _ => .skip fun _ =>
      .check fun _ => .check fun _ => .pure rfl)
  | utf8View | binaryView =>
    rw [vector]
    refine .ofType rfl (.skip fun p => ?_)
    split
    · exact .refuse _
    · refine .skip fun _ => .skip fun _ => .skip fun _ => ?_
      dsimp only
      split
      · exact .skip fun _ => .check fun _ => .check fun _ => .pure rfl
      · exact .refuse _
  | null | list | largeList | fixedSizeList | struct | map | union | runEndEncoded | dictionary =>
    exact .ofType rfl ((nestedOf_vector info rfl).imp fun _ h => h.type_eq)
  | _ => exact ofType_fixed _

end Types

/-- What loading a field ensures holds of the column of each field. -/
theorem ensures_forall₂_loadColumns {s : Source} {post : Field → Vector → Prop}
    (h : ∀ f, Ensures (vector s f.info f.type) (post f)) (schema : Schema) :
    Ensures (loadColumns s schema) (List.Forall₂ post schema) := by
  induction schema with
  | nil => exact .pure .nil
  | cons f fs ih => exact (h f).bind fun v hv => ih.bind fun vs hvs => .pure (.cons hv hvs)

end Load

/-- **Every column of a payload is of the type of its field.** -/
theorem readPayload_typed {b : ByteArray} {p : Payload} (h : readPayload b = pure p) :
    ∀ batch ∈ p.batches, List.Forall₂ (fun f v => v.OfType f.type) p.schema batch.columns := by
  refine readPayload_kept (P := fun _ => True)
    (Q := fun schema batch => List.Forall₂ (fun f v => v.OfType f.type) schema batch.columns)
    (fun schema => ⟨fun _ _ _ => trivial, fun _ _ hbatch => ?_⟩) trivial h
  obtain ⟨_, _, _, _, _, hload, _, _⟩ := readBatch_eq_ok hbatch
  exact Load.ensures_forall₂_loadColumns (fun f => Load.ofType_vector f.info f.type) schema _ _ _ hload

end DataClient.Arrow
