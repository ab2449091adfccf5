import Mathlib.Data.List.Lex
import Mathlib.Data.String.Basic
import XosChain.Lib.FlatMap
import XosChain.Wasm.Module

namespace XosChain.Wasm

open Lib Constraints FlatMap

def emplace {κ ν : Type} [LinearOrder κ] (slots : FlatMap κ ν) (k : κ) (v : ν) : FlatMap κ ν :=
  if slots.contains k then slots else slots.set k v

def injectedModuleName : String := "eosio_injection"

structure Injector where
  module : Module
  typeSlots : FlatMap (List ℕ) ℕ
  registeredInjected : FlatMap String ℕ
  injectedIndexMapping : FlatMap ℕ ℕ
  nextInjectedIndex : ℕ
  chktmIdx : ℕ
  globalIdx : Option ℕ

def Export.shift (n : ℕ) (e : Export) : Export :=
  if e.kind = .function then { e with index := e.index + n } else e

def TableSegment.shift (n : ℕ) (s : TableSegment) : TableSegment := { s with indices := s.indices.map (· + n) }

namespace Module

variable (m : Module)

def maxMemoryInject : Module :=
  { m with memories := m.memories.modifyHead (fun c =>
      if c.max > maximumLinearMemory / wasmPageSize
      then { c with max := maximumLinearMemory / wasmPageSize } else c) }

def insertImport (position : ℕ) (i : Import ℕ) : Module :=
  { m with
    functions := { m.functions with imports := m.functions.imports.insertIdx position i }
    exports := m.exports.map (Export.shift 1)
    startFunctionIndex := m.startFunctionIndex.map (· + 1)
    tableSegments := m.tableSegments.map (TableSegment.shift 1) }

def addGlobal (d : GlobalDef) : Module :=
  { m with globals := { m.globals with defs := m.globals.defs ++ [d] } }

def withDefs (defs : List FunctionDef) : Module := { m with functions := { m.functions with defs := defs } }

end Module

namespace Injector

def buildTypeSlots (types : List FunctionType) : FlatMap (List ℕ) ℕ :=
  types.zipIdx.foldl (fun slots t => emplace slots t.1.slot t.2) empty

def init (m : Module) : Injector where
  module := m
  typeSlots := buildTypeSlots m.types
  registeredInjected := empty
  injectedIndexMapping := empty
  nextInjectedIndex := 0
  chktmIdx := 0
  globalIdx := none

variable (s : Injector)

def addTypeSlot (t : FunctionType) : Injector :=
  if s.typeSlots.contains t.slot then s
  else { s with
    typeSlots := emplace s.typeSlots t.slot s.module.types.length
    module := { s.module with types := s.module.types ++ [t] } }

def register (name : String) (funcTypeIndex : ℕ) : ℕ × Injector :=
  let index := s.module.functions.size + s.registeredInjected.size
  let registered := emplace s.registeredInjected name index
  (index, { s with
    registeredInjected := registered
    injectedIndexMapping := emplace s.injectedIndexMapping index s.nextInjectedIndex
    nextInjectedIndex := s.nextInjectedIndex + 1
    module := s.module.insertImport (registered.size - 1) ⟨funcTypeIndex, injectedModuleName, name⟩ })

def addImport (t : FunctionType) (funcName : String) : ℕ × Injector :=
  if s.module.functions.imports.length = 0 ∨ ¬ s.registeredInjected.contains funcName then
    (s.addTypeSlot t).register funcName (((s.addTypeSlot t).typeSlots.find? t.slot).getD 0)
  else ((s.registeredInjected.find? funcName).getD 0, s)

end Injector

structure Mutator where
  kills : Bool
  post : Bool
  accept : Instr → Injector → Instr × List Instr × Injector

def passInjector : Mutator := ⟨false, false, fun op s => (op, [], s)⟩

def depthEnter (globalIdx assertIdx : ℕ) : List Instr :=
  [.getGlobal globalIdx, .int (.eqz .i32), .if_ 0x40, .call assertIdx, .else_, .i32Const (-1), .getGlobal globalIdx,
    .int (.binop .i32 .add), .setGlobal globalIdx, .end_]

def depthLeave (globalIdx : ℕ) : List Instr :=
  [.getGlobal globalIdx, .i32Const 1, .int (.binop .i32 .add), .setGlobal globalIdx]

def callDepthGlobal : GlobalDef := ⟨⟨.i32, true⟩, .i32Const (UInt32.ofNat maximumCallDepth)⟩

def Injector.addDepthGlobal (s : Injector) : Injector :=
  let s := if s.globalIdx = none then { s with module := s.module.addGlobal callDepthGlobal } else s
  { s with globalIdx := some (s.module.globals.size - 1) }

def callDepthCheck : Mutator where
  kills := true
  post := false
  accept op s :=
    let (assertIdx, s') := s.addDepthGlobal.addImport ⟨.none, []⟩ "call_depth_assert"
    let g := s'.globalIdx.getD 0
    (op, depthEnter g assertIdx ++ op :: depthLeave g, s')

def FloatWidth.name : FloatWidth → String
  | .f32 => "f32"
  | .f64 => "f64"

def IntWidth.name : IntWidth → String
  | .i32 => "i32"
  | .i64 => "i64"

def FloatUnop.name : FloatUnop → String
  | .abs => "abs"
  | .neg => "neg"
  | .ceil => "ceil"
  | .floor => "floor"
  | .trunc => "trunc"
  | .nearest => "nearest"
  | .sqrt => "sqrt"

def FloatBinop.name : FloatBinop → String
  | .add => "add"
  | .sub => "sub"
  | .mul => "mul"
  | .div => "div"
  | .min => "min"
  | .max => "max"
  | .copysign => "copysign"

def FloatRelop.name : FloatRelop → String
  | .eq => "eq"
  | .ne => "ne"
  | .lt => "lt"
  | .gt => "gt"
  | .le => "le"
  | .ge => "ge"

def injectWhichOp : FloatOp → String
  | .unop w op => "_eosio_" ++ w.name ++ "_" ++ op.name
  | .binop w op => "_eosio_" ++ w.name ++ "_" ++ op.name
  | .relop w op => "_eosio_" ++ w.name ++ "_" ++ op.name
  | .f64PromoteF32 => "_eosio_f32_promote"
  | .f32DemoteF64 => "_eosio_f64_demote"
  | .trunc i .unsigned w => "_eosio_" ++ w.name ++ "_trunc_" ++ i.name ++ "u"
  | .trunc i .signed w => "_eosio_" ++ w.name ++ "_trunc_" ++ i.name ++ "s"
  | .convert .f32 .signed .i64 => "_eosio_i64_f32"
  | .convert w .signed i => "_eosio_" ++ i.name ++ "_to_" ++ w.name
  | .convert w .unsigned i => "_eosio_u" ++ i.name ++ "_to_" ++ w.name

def importInjector (t : FunctionType) (funcName : String) : Mutator where
  kills := true
  post := false
  accept op s := (op, [.call (s.addImport t funcName).1], (s.addImport t funcName).2)

def f32BinopInjector (op : FloatOp) : Mutator := importInjector ⟨.f32, [.f32, .f32]⟩ (injectWhichOp op)
def f32UnopInjector (op : FloatOp) : Mutator := importInjector ⟨.f32, [.f32]⟩ (injectWhichOp op)
def f32RelopInjector (op : FloatOp) : Mutator := importInjector ⟨.i32, [.f32, .f32]⟩ (injectWhichOp op)
def f64BinopInjector (op : FloatOp) : Mutator := importInjector ⟨.f64, [.f64, .f64]⟩ (injectWhichOp op)
def f64UnopInjector (op : FloatOp) : Mutator := importInjector ⟨.f64, [.f64]⟩ (injectWhichOp op)
def f64RelopInjector (op : FloatOp) : Mutator := importInjector ⟨.i32, [.f64, .f64]⟩ (injectWhichOp op)
def f32TruncI32Injector (op : FloatOp) : Mutator := importInjector ⟨.i32, [.f32]⟩ (injectWhichOp op)
def f32TruncI64Injector (op : FloatOp) : Mutator := importInjector ⟨.i64, [.f32]⟩ (injectWhichOp op)
def f64TruncI32Injector (op : FloatOp) : Mutator := importInjector ⟨.i32, [.f64]⟩ (injectWhichOp op)
def f64TruncI64Injector (op : FloatOp) : Mutator := importInjector ⟨.i64, [.f64]⟩ (injectWhichOp op)
def f32PromoteInjector : Mutator := importInjector ⟨.f64, [.f32]⟩ "_eosio_f32_promote"
def f64DemoteInjector : Mutator := importInjector ⟨.f32, [.f64]⟩ "_eosio_f64_demote"

def preOpInjectors : Instr → Mutator
  | .call _ | .callIndirect _ => callDepthCheck
  | .float (.binop .f32 op) => f32BinopInjector (.binop .f32 op)
  | .float (.unop .f32 op) => f32UnopInjector (.unop .f32 op)
  | .float (.relop .f32 op) => f32RelopInjector (.relop .f32 op)
  | .float (.binop .f64 op) => f64BinopInjector (.binop .f64 op)
  | .float (.unop .f64 op) => f64UnopInjector (.unop .f64 op)
  | .float (.relop .f64 op) => f64RelopInjector (.relop .f64 op)
  | .float .f64PromoteF32 => f32PromoteInjector
  | .float .f32DemoteF64 => f64DemoteInjector
  | .float (.trunc .i32 sign .f32) => f32TruncI32Injector (.trunc .i32 sign .f32)
  | .float (.trunc .i32 sign .f64) => f64TruncI32Injector (.trunc .i32 sign .f64)
  | .float (.trunc .i64 sign .f32) => f32TruncI64Injector (.trunc .i64 sign .f32)
  | .float (.trunc .i64 sign .f64) => f64TruncI64Injector (.trunc .i64 sign .f64)
  -- The aliases of the eight conversions are named without the suffix `_t`, so the decoder takes the inherited ones.
  | .float (.convert _ _ _) => passInjector
  | _ => passInjector

def checktimeInjection : Mutator where
  kills := false
  post := true
  accept op s := (op, [.call ((s.injectedIndexMapping.find? s.chktmIdx).getD 0)], s)

def Injector.fixIndex (s : Injector) (f : ℕ) : ℕ :=
  match s.injectedIndexMapping.find? f with
  | some k => k
  | none => f + s.registeredInjected.size

def fixCallIndex : Mutator where
  kills := false
  post := false
  accept op s :=
    match op with
    | .call f => (.call (s.fixIndex f), [], s)
    | op => (op, [], s)

def postOpInjectors : Instr → Mutator
  | .loop _ => checktimeInjection
  | .call _ => fixCallIndex
  | _ => passInjector

namespace Injector

def visit (injectors : Instr → Mutator) (op : Instr) (s : Injector) : List Instr × Injector :=
  let (op', code, s') := (injectors op).accept op s
  if (injectors op).post then (op :: code, s')
  else if (injectors op).kills then (code, s')
  else (code ++ [op'], s')

def visitCode (injectors : Instr → Mutator) : List Instr → Injector → List Instr × Injector
  | [], s => ([], s)
  | op :: ops, s =>
    let (code, s) := visit injectors op s
    let (codes, s) := visitCode injectors ops s
    (code ++ codes, s)

def visitDefs (injectors : Instr → Mutator) (start : List Instr) :
    List FunctionDef → Injector → List FunctionDef × Injector
  | [], s => ([], s)
  | fd :: fds, s =>
    let (code, s) := visitCode injectors fd.code s
    let (fds, s) := visitDefs injectors start fds s
    ({ fd with code := start ++ code } :: fds, s)

def pass (injectors : Instr → Mutator) (start : List Instr) (s : Injector) : Injector :=
  let (defs, s') := visitDefs injectors start s.module.functions.defs s
  { s' with module := s'.module.withDefs defs }

def addChecktime (s : Injector) : Injector :=
  let (index, s) := s.addImport ⟨.none, []⟩ "checktime"
  { s with chktmIdx := index }

def checktimeCall (s : Injector) : Instr := .call ((s.injectedIndexMapping.find? s.chktmIdx).getD 0)

def finish (s : Injector) : Injector :=
  let s := s.addChecktime
  let s := s.pass preOpInjectors []
  s.pass postOpInjectors [s.checktimeCall]

end Injector

def Module.inject (m : Module) : Module :=
  let s := Injector.init m
  { s with module := s.module.maxMemoryInject }.finish.module

end XosChain.Wasm
