import Mathlib.Tactic

/-! Operators and modules of the WebAssembly intermediate representation. Function bodies are kept as the
sequence of operators that the decoder reads from their bytes. -/

namespace XosChain.Wasm

open Function

namespace Constraints

def maximumLinearMemory : ℕ := 33 * 1024 * 1024
def maximumMutableGlobals : ℕ := 1024
def maximumTableElements : ℕ := 1024
def maximumLinearMemoryInit : ℕ := 64 * 1024
def maximumFuncLocalBytes : ℕ := 8192
def maximumCallDepth : ℕ := 250
def wasmPageSize : ℕ := 64 * 1024

end Constraints

inductive ValueType where
  | any | i32 | i64 | f32 | f64
  deriving DecidableEq

inductive ResultType where
  | none | i32 | i64 | f32 | f64
  deriving DecidableEq

def ValueType.code : ValueType → ℕ
  | .any => 0
  | .i32 => 1
  | .i64 => 2
  | .f32 => 3
  | .f64 => 4

def ResultType.code : ResultType → ℕ
  | .none => 0
  | .i32 => 1
  | .i64 => 2
  | .f32 => 3
  | .f64 => 4

def ResultType.arity (r : ResultType) : ℕ := if r = .none then 0 else 1

structure FunctionType where
  ret : ResultType
  parameters : List ValueType
  deriving DecidableEq

def FunctionType.slot (t : FunctionType) : List ℕ := t.ret.code :: t.parameters.map ValueType.code

lemma ResultType.code_injective : Injective ResultType.code := by
  intro a b h
  cases a <;> cases b <;> first | rfl | cases h

lemma ValueType.code_injective : Injective ValueType.code := by
  intro a b h
  cases a <;> cases b <;> first | rfl | cases h

lemma FunctionType.slot_injective : Injective FunctionType.slot := by
  intro t t' h
  have hret := ResultType.code_injective (List.cons.inj h).1
  have hparameters := ValueType.code_injective.list_map (List.cons.inj h).2
  cases t
  cases t'
  simp_all

inductive IntWidth where
  | i32 | i64
  deriving DecidableEq

inductive FloatWidth where
  | f32 | f64
  deriving DecidableEq

inductive Sign where
  | signed | unsigned
  deriving DecidableEq

def IntWidth.value : IntWidth → ValueType
  | .i32 => .i32
  | .i64 => .i64

def IntWidth.result : IntWidth → ResultType
  | .i32 => .i32
  | .i64 => .i64

def FloatWidth.value : FloatWidth → ValueType
  | .f32 => .f32
  | .f64 => .f64

def FloatWidth.result : FloatWidth → ResultType
  | .f32 => .f32
  | .f64 => .f64

inductive IntUnop where
  | clz | ctz | popcnt
  deriving DecidableEq

inductive IntBinop where
  | add | sub | mul | divS | divU | remS | remU | and | or | xor | shl | shrS | shrU | rotl | rotr
  deriving DecidableEq

inductive IntRelop where
  | eq | ne | ltS | ltU | gtS | gtU | leS | leU | geS | geU
  deriving DecidableEq

inductive IntOp where
  | eqz (w : IntWidth)
  | unop (w : IntWidth) (op : IntUnop)
  | binop (w : IntWidth) (op : IntBinop)
  | relop (w : IntWidth) (op : IntRelop)
  | i32WrapI64
  | i64ExtendI32 (sign : Sign)
  | i32ReinterpretF32
  | i64ReinterpretF64
  | f32ReinterpretI32
  | f64ReinterpretI64
  deriving DecidableEq

def IntOp.arity : IntOp → ℕ
  | .binop _ _ | .relop _ _ => 2
  | _ => 1

inductive FloatUnop where
  | abs | neg | ceil | floor | trunc | nearest | sqrt
  deriving DecidableEq

inductive FloatBinop where
  | add | sub | mul | div | min | max | copysign
  deriving DecidableEq

inductive FloatRelop where
  | eq | ne | lt | gt | le | ge
  deriving DecidableEq

inductive FloatOp where
  | unop (w : FloatWidth) (op : FloatUnop)
  | binop (w : FloatWidth) (op : FloatBinop)
  | relop (w : FloatWidth) (op : FloatRelop)
  | trunc (i : IntWidth) (sign : Sign) (w : FloatWidth)
  | convert (w : FloatWidth) (sign : Sign) (i : IntWidth)
  | f32DemoteF64
  | f64PromoteF32
  deriving DecidableEq

def FloatOp.type : FloatOp → FunctionType
  | .unop w _ => ⟨w.result, [w.value]⟩
  | .binop w _ => ⟨w.result, [w.value, w.value]⟩
  | .relop w _ => ⟨.i32, [w.value, w.value]⟩
  | .trunc i _ w => ⟨i.result, [w.value]⟩
  | .convert w _ i => ⟨w.result, [i.value]⟩
  | .f32DemoteF64 => ⟨.f32, [.f64]⟩
  | .f64PromoteF32 => ⟨.f64, [.f32]⟩

inductive LoadOp where
  | i32Load | i64Load | f32Load | f64Load | i32Load8S | i32Load8U | i32Load16S | i32Load16U
  | i64Load8S | i64Load8U | i64Load16S | i64Load16U | i64Load32S | i64Load32U
  deriving DecidableEq

inductive StoreOp where
  | i32Store | i64Store | f32Store | f64Store | i32Store8 | i32Store16 | i64Store8 | i64Store16 | i64Store32
  deriving DecidableEq

structure Memarg where
  align : ℕ
  offset : ℕ
  deriving DecidableEq

inductive Instr where
  | error | end_ | unreachable | nop | else_ | return_ | drop | select
  | block (result : UInt8)
  | loop (result : UInt8)
  | if_ (result : UInt8)
  | br (targetDepth : ℕ)
  | brIf (targetDepth : ℕ)
  | brTable (targetDepth tableIndex : ℕ)
  | call (function : ℕ)
  | callIndirect (type : ℕ)
  | getLocal (index : ℕ)
  | setLocal (index : ℕ)
  | teeLocal (index : ℕ)
  | getGlobal (index : ℕ)
  | setGlobal (index : ℕ)
  | i32Const (value : UInt32)
  | i64Const (value : UInt64)
  | f32Const (bits : UInt32)
  | f64Const (bits : UInt64)
  | currentMemory
  | growMemory
  | load (op : LoadOp) (field : Memarg)
  | store (op : StoreOp) (field : Memarg)
  | int (op : IntOp)
  | float (op : FloatOp)
  deriving DecidableEq

inductive InitializerExpression where
  | i32Const (value : UInt32)
  | i64Const (value : UInt64)
  | f32Const (bits : UInt32)
  | f64Const (bits : UInt64)
  | getGlobal (index : ℕ)
  | error
  deriving DecidableEq

structure FunctionDef where
  type : ℕ
  nonParameterLocalTypes : List ValueType
  code : List Instr
  branchTables : List (List ℕ)
  deriving DecidableEq

structure SizeConstraints where
  min : ℕ
  max : ℕ
  deriving DecidableEq

structure GlobalType where
  valueType : ValueType
  isMutable : Bool
  deriving DecidableEq

structure GlobalDef where
  type : GlobalType
  initializer : InitializerExpression
  deriving DecidableEq

structure Import (τ : Type) where
  type : τ
  moduleName : String
  exportName : String
  deriving DecidableEq

inductive ObjectKind where
  | function | table | memory | global
  deriving DecidableEq

structure Export where
  name : String
  kind : ObjectKind
  index : ℕ
  deriving DecidableEq

structure DataSegment where
  memoryIndex : ℕ
  baseOffset : InitializerExpression
  data : List UInt8
  deriving DecidableEq

structure TableSegment where
  tableIndex : ℕ
  baseOffset : InitializerExpression
  indices : List ℕ
  deriving DecidableEq

structure IndexSpace (δ τ : Type) where
  imports : List (Import τ)
  defs : List δ
  deriving DecidableEq

def IndexSpace.size {δ τ : Type} (s : IndexSpace δ τ) : ℕ := s.imports.length + s.defs.length

structure Module where
  types : List FunctionType
  functions : IndexSpace FunctionDef ℕ
  tables : List SizeConstraints
  memories : List SizeConstraints
  globals : IndexSpace GlobalDef GlobalType
  exports : List Export
  dataSegments : List DataSegment
  tableSegments : List TableSegment
  startFunctionIndex : Option ℕ
  deriving DecidableEq

namespace Module

variable (m : Module)

def functionType? (f : ℕ) : Option ℕ :=
  if f < m.functions.imports.length then m.functions.imports[f]?.map Import.type
  else m.functions.defs[f - m.functions.imports.length]?.map FunctionDef.type

def exportNamed (name : String) : Option ℕ :=
  (m.exports.find? (fun e => e.kind = .function ∧ e.name = name)).map Export.index

def validOp : Instr → Bool
  | .call f => f < m.functions.size
  | .callIndirect t => t < m.types.length
  | .getGlobal g | .setGlobal g => g < m.globals.size
  | _ => true

structure Valid : Prop where
  importTypes : ∀ i ∈ m.functions.imports, i.type < m.types.length
  defTypes : ∀ d ∈ m.functions.defs, d.type < m.types.length
  bodies : ∀ d ∈ m.functions.defs, ∀ op ∈ d.code, m.validOp op

end Module

end XosChain.Wasm
