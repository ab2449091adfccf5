import XosChain.Basic
import XosChain.Wasm.Module

namespace XosChain.Wasm.Validation

open Constraints

variable (m : Module)

def memories : Result Unit :=
  match m.memories with
  | [] => .ok ()
  | c :: _ => eosAssert (c.min ≤ maximumLinearMemory / (64 * 1024)) .wasmExecutionError
      "Smart contract initial memory size must be less than or equal to 33792KiB"

def dataSegment (ds : DataSegment) : Result Unit :=
  match ds.baseOffset with
  | .i32Const offset => eosAssert (offset.toNat + ds.data.length ≤ maximumLinearMemoryInit)
      .wasmExecutionError "Smart contract data segments must lie in first 64KiB"
  | _ => .error ⟨.wasmExecutionError, "Smart contract has unexpected memory base offset type"⟩

def tables : Result Unit :=
  match m.tables with
  | [] => .ok ()
  | c :: _ => eosAssert (c.min ≤ maximumTableElements) .wasmExecutionError
      "Smart contract table limited to 1024 elements"

def mutableGlobalSize (size : ℕ) (d : GlobalDef) : Result ℕ :=
  if d.type.isMutable then
    match d.type.valueType with
    | .any => .error ⟨.wasmExecutionError, "Smart contract has unexpected global definition value type"⟩
    | .i64 | .f64 => .ok (size + 8)
    | .i32 | .f32 => .ok (size + 4)
  else .ok size

def globals : Result Unit := do
  let size ← m.globals.defs.foldlM mutableGlobalSize 0
  eosAssert (size ≤ maximumMutableGlobals) .wasmExecutionError
    "Smart contract has more than 1024 bytes of mutable globals"

def typeBytes (size : ℕ) : ValueType → Result ℕ
  | .any => .error ⟨.undefinedBehavior, "reached unreachable code"⟩
  | .i32 | .f32 => .ok (size + 4)
  | .i64 | .f64 => .ok (size + 8)

def functionStack (func : FunctionDef) : Result Unit :=
  match m.types[func.type]? with
  | none => .error ⟨.undefinedBehavior, "types[func.type.index]"⟩
  | some t => do
    let size ← (func.nonParameterLocalTypes ++ t.parameters).foldlM typeBytes 0
    eosAssert (size ≤ maximumFuncLocalBytes) .wasmExecutionError
      "Smart contract function has more than 8192 bytes of stack usage"

def applyType : FunctionType := ⟨.none, [.i64, .i64, .i64]⟩

def ensureApplyExported : List Export → Result Unit
  | [] => .error ⟨.wasmExecutionError, "Smart contract's apply function not exported; non-existent; or wrong type"⟩
  | e :: es =>
    if e.kind = .function ∧ e.name = "apply" then
      match (m.functionType? e.index).bind (m.types[·]?) with
      | none => .error ⟨.undefinedBehavior, "types[functions.getType(exprt.index).index]"⟩
      | some t => if t = applyType then .ok () else ensureApplyExported es
    else ensureApplyExported es

def nested (disabled : Bool) (depth : ℕ) (op : Instr) : Result ℕ :=
  if disabled then .ok depth
  else if op = .end_ ∧ depth > 0 then .ok (depth - 1)
  else do
    eosAssert (depth + 1 < 1024) .wasmExecutionError "Nested depth exceeded"
    pure (depth + 1)

def largeOffset (field : Memarg) : Result Unit :=
  eosAssert (field.offset < maximumLinearMemory) .wasmExecutionError
    "Smart contract used an invalid large memory store/load offset"

def opConstrainers (disabled : Bool) (depth : ℕ) : Instr → Result ℕ
  | .error => .error ⟨.wasmExecutionError, "Error, blacklisted opcode error "⟩
  | .block t => nested disabled depth (.block t)
  | .loop t => nested disabled depth (.loop t)
  | .if_ t => nested disabled depth (.if_ t)
  | .else_ => nested disabled depth .else_
  | .end_ => nested disabled depth .end_
  | .load _ field | .store _ field => do
    largeOffset field
    pure depth
  | _ => .ok depth

def validate (producing : Bool) : Result Unit := do
  memories m
  m.dataSegments.forM dataSegment
  tables m
  globals m
  m.functions.defs.forM (functionStack m)
  ensureApplyExported m m.exports
  let _ ← (m.functions.defs.flatMap FunctionDef.code).foldlM (opConstrainers (!producing)) 0
  pure ()

end XosChain.Wasm.Validation
