/-!
# The tables of payload metadata

Which members the tables of messages, schemas and footers have, and what each holds. Members are
listed by their position in the directory of the table.
-/

set_option autoImplicit false

namespace DataClient.Arrow

inductive TableKind
  | message
  | footer
  | schema
  | field
  | keyValue
  | dictionaryEncoding
  | recordBatch
  | dictionaryBatch
  | bodyCompression
  | tensor
  | tensorDim
  | sparseTensor
  | sparseCoo
  | sparseCsx
  | sparseCsf
  /-- A type without parameters. -/
  | plainType
  | intType
  | floatType
  | decimalType
  /-- A type whose one parameter is a unit. -/
  | unitType
  | timeType
  | timestampType
  | unionType
  /-- A type whose one parameter is a size. -/
  | sizedType
  | mapType
  deriving DecidableEq, Repr

/-- What a member of a table holds. -/
inductive Slot
  /-- A number aligned to its own size. -/
  | scalar (size : Nat)
  /-- A group of numbers without alignment. -/
  | group (size : Nat)
  | string
  | table (kind : TableKind)
  /-- A vector of numbers. -/
  | scalars (size alignment : Nat)
  | tables (kind : TableKind)
  /-- One of several tables; the member itself is a byte that says which one, and the next member is
  the table. -/
  | union (kinds : List (Nat × TableKind))
  deriving Repr

/-- A member: its position in the directory, what it holds, and whether it has to be there. -/
structure Member where
  index : Nat
  slot : Slot
  required : Bool

/-- The tables that describe types, by the number of the type. -/
def typeKinds : List (Nat × TableKind) := [
  (1, .plainType), (2, .intType), (3, .floatType), (4, .plainType), (5, .plainType),
  (6, .plainType), (7, .decimalType), (8, .unitType), (9, .timeType), (10, .timestampType),
  (11, .unitType), (12, .plainType), (13, .plainType), (14, .unionType), (15, .sizedType),
  (16, .sizedType), (17, .mapType), (18, .unitType), (19, .plainType), (20, .plainType),
  (21, .plainType), (22, .plainType), (23, .plainType), (24, .plainType), (25, .plainType),
  (26, .plainType)]

/-- The tables that a message carries, by the number of its header. -/
def headerKinds : List (Nat × TableKind) := [
  (1, .schema), (2, .dictionaryBatch), (3, .recordBatch), (4, .tensor), (5, .sparseTensor)]

/-- The index tables of a sparse tensor. -/
def sparseKinds : List (Nat × TableKind) := [(1, .sparseCoo), (2, .sparseCsx), (3, .sparseCsf)]

/-- A member that may be absent. -/
def Member.opt (index : Nat) (slot : Slot) : Member := ⟨index, slot, false⟩

/-- A member that has to be there. -/
def Member.req (index : Nat) (slot : Slot) : Member := ⟨index, slot, true⟩

def TableKind.members : TableKind → List Member
  | .message => [.opt 0 (.scalar 2), .opt 1 (.union headerKinds), .opt 3 (.scalar 8),
      .opt 4 (.tables .keyValue)]
  | .footer => [.opt 0 (.scalar 2), .opt 1 (.table .schema), .opt 2 (.scalars 24 1),
      .opt 3 (.scalars 24 1), .opt 4 (.tables .keyValue)]
  | .schema => [.opt 0 (.scalar 2), .opt 1 (.tables .field), .opt 2 (.tables .keyValue),
      .opt 3 (.scalars 8 8)]
  | .field => [.opt 0 .string, .opt 1 (.scalar 1), .opt 2 (.union typeKinds),
      .opt 4 (.table .dictionaryEncoding), .opt 5 (.tables .field), .opt 6 (.tables .keyValue)]
  | .keyValue => [.opt 0 .string, .opt 1 .string]
  | .dictionaryEncoding => [.opt 0 (.scalar 8), .opt 1 (.table .intType), .opt 2 (.scalar 1),
      .opt 3 (.scalar 2)]
  | .recordBatch => [.opt 0 (.scalar 8), .opt 1 (.scalars 16 1), .opt 2 (.scalars 16 1),
      .opt 3 (.table .bodyCompression), .opt 4 (.scalars 8 8)]
  | .dictionaryBatch => [.opt 0 (.scalar 8), .opt 1 (.table .recordBatch), .opt 2 (.scalar 1)]
  | .bodyCompression => [.opt 0 (.scalar 1), .opt 1 (.scalar 1)]
  | .tensor => [.req 0 (.union typeKinds), .req 2 (.tables .tensorDim), .opt 3 (.scalars 8 8),
      .req 4 (.group 16)]
  | .tensorDim => [.opt 0 (.scalar 8), .opt 1 .string]
  | .sparseTensor => [.req 0 (.union typeKinds), .req 2 (.tables .tensorDim), .opt 3 (.scalar 8),
      .req 4 (.union sparseKinds), .req 6 (.group 16)]
  | .sparseCoo => [.req 0 (.table .intType), .opt 1 (.scalars 8 8), .req 2 (.group 16),
      .opt 3 (.scalar 1)]
  | .sparseCsx => [.opt 0 (.scalar 2), .req 1 (.table .intType), .req 2 (.group 16),
      .req 3 (.table .intType), .req 4 (.group 16)]
  | .sparseCsf => [.req 0 (.table .intType), .req 1 (.scalars 16 1), .req 2 (.table .intType),
      .req 3 (.scalars 16 1), .req 4 (.scalars 4 4)]
  | .plainType => []
  | .intType => [.opt 0 (.scalar 4), .opt 1 (.scalar 1)]
  | .floatType => [.opt 0 (.scalar 2)]
  | .decimalType => [.opt 0 (.scalar 4), .opt 1 (.scalar 4), .opt 2 (.scalar 4)]
  | .unitType => [.opt 0 (.scalar 2)]
  | .timeType => [.opt 0 (.scalar 2), .opt 1 (.scalar 4)]
  | .timestampType => [.opt 0 (.scalar 2), .opt 1 .string]
  | .unionType => [.opt 0 (.scalar 2), .opt 1 (.scalars 4 4)]
  | .sizedType => [.opt 0 (.scalar 4)]
  | .mapType => [.opt 0 (.scalar 1)]

end DataClient.Arrow
