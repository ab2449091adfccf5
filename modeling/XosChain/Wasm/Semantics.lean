import Mathlib.Computability.StateTransition
import XosChain.Wasm.Softfloat

/-! Execution of a module, one operator at a time. What the numbers, the linear memory and the host functions do is
left to a `Machine`, of which only the meaning of the injected imports and of the operators they come with is fixed. -/

namespace XosChain.Wasm

open StateTransition

inductive Value where
  | i32 (v : UInt32)
  | i64 (v : UInt64)
  | f32 (bits : UInt32)
  | f64 (bits : UInt64)
  deriving DecidableEq

def ValueType.zero : ValueType → Value
  | .any | .i32 => .i32 0
  | .i64 => .i64 0
  | .f32 => .f32 0
  | .f64 => .f64 0

structure Machine (W : Type) where
  intOp : IntOp → List Value → Option Value
  floatOp : FloatOp → List Value → Option Value
  load : LoadOp → Memarg → UInt32 → W → Option Value
  store : StoreOp → Memarg → UInt32 → Value → W → Option W
  pages : W → ℕ
  resize : ℕ → W → W
  initialMemory : Option ℕ → List DataSegment → W → Option W
  importedGlobal : String → String → Option Value
  host : String → String → List Value → W → Option (List Value × W)
  eqz : ∀ v, intOp (.eqz .i32) [.i32 v] = some (.i32 (if v = 0 then 1 else 0))
  add : ∀ v v', intOp (.binop .i32 .add) [.i32 v, .i32 v'] = some (.i32 (v + v'))
  checktime : ∀ w, host injectedModuleName Injected.checktime.name [] w = some ([], w)
  callDepthAssert : ∀ w, host injectedModuleName Injected.callDepthAssert.name [] w = none
  softfloat : ∀ op, op.isConvert = false → ∀ args w,
    host injectedModuleName (injectWhichOp op) args w = (floatOp op args).map (fun v => ([v], w))

structure Label where
  arity : ℕ
  height : ℕ
  target : List Instr

structure Frame where
  code : List Instr
  values : List Value
  labels : List Label
  locals : List Value
  arity : ℕ
  branchTables : List (List ℕ)

structure Invocation where
  function : ℕ
  arguments : List Value

structure Config (W : Type) where
  frames : List Frame
  pending : List Invocation
  results : List Value
  globals : List Value
  world : W

inductive State (W : Type) where
  | running (c : Config W)
  | trapped

def Instr.opens : Instr → Bool
  | .block _ | .loop _ | .if_ _ => true
  | _ => false

def skipToEnd : ℕ → List Instr → List Instr
  | _, [] => []
  | depth, op :: code =>
    if op.opens then skipToEnd (depth + 1) code
    else if op = .end_ then
      match depth with
      | 0 => code
      | depth + 1 => skipToEnd depth code
    else skipToEnd depth code

def skipToElse : ℕ → List Instr → Bool × List Instr
  | _, [] => (false, [])
  | depth, op :: code =>
    if op.opens then skipToElse (depth + 1) code
    else if op = .end_ then
      match depth with
      | 0 => (false, code)
      | depth + 1 => skipToElse depth code
    else if op = .else_ ∧ depth = 0 then (true, code)
    else skipToElse depth code

def blockArity (result : UInt8) : ℕ := if result = 0 ∨ result = 0x40 then 0 else 1

inductive Transfer where
  | next (f : Frame)
  | exit (results : List Value)
  | trap

namespace Frame

variable (f : Frame)

def leave : Transfer := .exit (f.values.take f.arity)

def branch (depth : ℕ) : Transfer :=
  match f.labels[depth]? with
  | some l => .next { f with
      code := l.target
      values := f.values.take l.arity ++ f.values.drop (f.values.length - l.height)
      labels := f.labels.drop (depth + 1) }
  | none => if depth = f.labels.length then f.leave else .trap

def enterBlock (arity : ℕ) (target : List Instr) : Frame :=
  { f with labels := ⟨arity, f.values.length, target⟩ :: f.labels }

def enterIf (result : UInt8) (condition : UInt32) : Frame :=
  let inner := f.enterBlock (blockArity result) (skipToEnd 0 f.code)
  if condition ≠ 0 then inner
  else match skipToElse 0 f.code with
    | (true, code) => { inner with code := code }
    | (false, code) => { f with code := code }

def control : Instr → Transfer
  | .block t => .next (f.enterBlock (blockArity t) (skipToEnd 0 f.code))
  | .loop t => .next (f.enterBlock 0 (.loop t :: f.code))
  | .if_ t =>
    match f.values with
    | .i32 v :: vs => .next ({ f with values := vs }.enterIf t v)
    | _ => .trap
  | .else_ =>
    match f.labels with
    | [] => .trap
    | l :: ls => .next { f with code := l.target, labels := ls }
  | .end_ =>
    match f.labels with
    | [] => f.leave
    | _ :: ls => .next { f with labels := ls }
  | .br d => f.branch d
  | .brIf d =>
    match f.values with
    | .i32 v :: vs => if v ≠ 0 then { f with values := vs }.branch d else .next { f with values := vs }
    | _ => .trap
  | .brTable d k =>
    match f.values, f.branchTables[k]? with
    | .i32 v :: vs, some targets => { f with values := vs }.branch (targets.getD v.toNat d)
    | _, _ => .trap
  | .return_ => f.leave
  | _ => .trap

end Frame

structure Data (W : Type) where
  values : List Value
  locals : List Value
  globals : List Value
  world : W

def takeArgs (n : ℕ) (values : List Value) : Option (List Value × List Value) :=
  if n ≤ values.length then some ((values.take n).reverse, values.drop n) else none

namespace Machine

variable {W : Type} (M : Machine W)

def apply (n : ℕ) (f : List Value → Option Value) (d : Data W) : Option (Data W) := do
  let (args, rest) ← takeArgs n d.values
  let v ← f args
  pure { d with values := v :: rest }

def effect (pageLimit : ℕ) (op : Instr) (d : Data W) : Option (Data W) :=
  match op, d.values with
  | .nop, _ => some d
  | .drop, _ :: vs => some { d with values := vs }
  | .select, .i32 v :: b :: a :: vs => some { d with values := (if v ≠ 0 then a else b) :: vs }
  | .getLocal i, vs => d.locals[i]?.map (fun v => { d with values := v :: vs })
  | .setLocal i, v :: vs =>
    if i < d.locals.length then some { d with values := vs, locals := d.locals.set i v } else none
  | .teeLocal i, v :: _ => if i < d.locals.length then some { d with locals := d.locals.set i v } else none
  | .getGlobal i, vs => d.globals[i]?.map (fun v => { d with values := v :: vs })
  | .setGlobal i, v :: vs =>
    if i < d.globals.length then some { d with values := vs, globals := d.globals.set i v } else none
  | .i32Const v, vs => some { d with values := .i32 v :: vs }
  | .i64Const v, vs => some { d with values := .i64 v :: vs }
  | .f32Const v, vs => some { d with values := .f32 v :: vs }
  | .f64Const v, vs => some { d with values := .f64 v :: vs }
  | .currentMemory, vs => some { d with values := .i32 (UInt32.ofNat (M.pages d.world)) :: vs }
  | .growMemory, .i32 v :: vs =>
    if M.pages d.world + v.toNat ≤ pageLimit then
      some { d with
        values := .i32 (UInt32.ofNat (M.pages d.world)) :: vs
        world := M.resize (M.pages d.world + v.toNat) d.world }
    else some { d with values := .i32 (-1) :: vs }
  | .load op a, .i32 v :: vs => (M.load op a v d.world).map (fun r => { d with values := r :: vs })
  | .store op a, v :: .i32 i :: vs => (M.store op a i v d.world).map (fun w => { d with values := vs, world := w })
  | .int op, _ => apply op.arity (M.intOp op) d
  | .float op, _ => apply op.type.parameters.length (M.floatOp op) d
  | _, _ => none

end Machine

structure Callee where
  type : FunctionType
  body : Import ℕ ⊕ FunctionDef

def Module.callee (m : Module) (f : ℕ) : Option Callee :=
  if f < m.functions.imports.length then
    m.functions.imports[f]?.bind (fun i => m.types[i.type]?.map (⟨·, .inl i⟩))
  else m.functions.defs[f - m.functions.imports.length]?.bind (fun d => m.types[d.type]?.map (⟨·, .inr d⟩))

def Module.pageLimit (m : Module) : ℕ :=
  match m.memories with
  | [] => 0
  | c :: _ => min c.max 65536

structure Instance where
  module : Module
  table : List (Option ℕ)

def Frame.ofCall (t : FunctionType) (d : FunctionDef) (args : List Value) : Frame where
  code := d.code
  values := []
  labels := []
  locals := args ++ d.nonParameterLocalTypes.map ValueType.zero
  arity := t.ret.arity
  branchTables := d.branchTables

inductive Kind where
  | call | control | data
  deriving DecidableEq

def Instr.kind : Instr → Kind
  | .call _ | .callIndirect _ => .call
  | .block _ | .loop _ | .if_ _ | .else_ | .end_ | .br _ | .brIf _ | .brTable _ _ | .return_ => .control
  | _ => .data

section

variable {W : Type}

def Config.deliver (c : Config W) (results : List Value) : List Frame → State W
  | [] => .running { c with frames := [], results := results }
  | f :: fs => .running { c with frames := { f with values := results ++ f.values } :: fs }

def Instance.target (I : Instance) (f : Frame) : Instr → Option (Callee × Frame)
  | .call n => (I.module.callee n).map (·, f)
  | .callIndirect t =>
    match f.values with
    | .i32 i :: vs => do
      let n ← (I.table[i.toNat]?).join
      let k ← I.module.callee n
      if I.module.types[t]? = some k.type then some (k, { f with values := vs }) else none
    | _ => none
  | _ => none

namespace Machine

variable (M : Machine W)

def enter (k : Callee) (args : List Value) (fs : List Frame) (c : Config W) : State W :=
  match k.body with
  | .inl i =>
    match M.host i.moduleName i.exportName args c.world with
    | none => .trapped
    | some (results, w) => { c with world := w }.deliver results fs
  | .inr d => .running { c with frames := Frame.ofCall k.type d args :: fs }

def call (k : Callee) (f : Frame) (fs : List Frame) (c : Config W) : State W :=
  match takeArgs k.type.parameters.length f.values with
  | none => .trapped
  | some (args, rest) => M.enter k args ({ f with values := rest } :: fs) c

def execute (I : Instance) (op : Instr) (f : Frame) (fs : List Frame) (c : Config W) : State W :=
  match op.kind with
  | .call =>
    match I.target f op with
    | none => .trapped
    | some (k, f) => M.call k f fs c
  | .control =>
    match f.control op with
    | .next f => .running { c with frames := f :: fs }
    | .exit results => c.deliver results fs
    | .trap => .trapped
  | .data =>
    match M.effect I.module.pageLimit op ⟨f.values, f.locals, c.globals, c.world⟩ with
    | none => .trapped
    | some d => .running { c with
        frames := { f with values := d.values, locals := d.locals } :: fs
        globals := d.globals
        world := d.world }

def step (I : Instance) : State W → Option (State W)
  | .trapped => none
  | .running c =>
    match c.frames, c.pending with
    | [], [] => none
    | [], p :: ps =>
      match I.module.callee p.function with
      | none => some .trapped
      | some k => some (M.enter k p.arguments [] { c with pending := ps })
    | f :: fs, _ =>
      match f.code with
      | [] => some .trapped
      | op :: code => some (M.execute I op { f with code := code } fs c)

end Machine

def State.nesting : State W → ℕ
  | .running ⟨f :: fs, _, _, _, _⟩ =>
    match f.code with
    | op :: _ => if op.kind = .call then fs.length + 1 else fs.length
    | [] => fs.length
  | _ => 0

def State.result : State W → Option (List Value × W)
  | .trapped => none
  | .running c => some (c.results, c.world)

end

def InitializerExpression.eval (imported : List Value) : InitializerExpression → Option Value
  | .i32Const v => some (.i32 v)
  | .i64Const v => some (.i64 v)
  | .f32Const v => some (.f32 v)
  | .f64Const v => some (.f64 v)
  | .getGlobal i => imported[i]?
  | .error => none

def writeSegment (imported : List Value) (table : List (Option ℕ)) (s : TableSegment) : Option (List (Option ℕ)) :=
  match s.baseOffset.eval imported with
  | some (.i32 offset) =>
    if offset.toNat + s.indices.length ≤ table.length then
      some (table.take offset.toNat ++ s.indices.map some ++ table.drop (offset.toNat + s.indices.length))
    else none
  | _ => none

def Module.emptyTable (m : Module) : List (Option ℕ) :=
  match m.tables with
  | [] => []
  | c :: _ => List.replicate c.min none

def Module.start {W : Type} (m : Module) (name : String) (args : List Value) (globals : List Value) (w : W) : State W :=
  match m.exportNamed name with
  | none => .trapped
  | some f => .running {
      frames := []
      pending := m.startFunctionIndex.toList.map (⟨·, []⟩) ++ [⟨f, args⟩]
      results := []
      globals := globals
      world := w }

namespace Machine

variable {W : Type} (M : Machine W)

def importedGlobals (m : Module) : Option (List Value) :=
  m.globals.imports.mapM (fun i => M.importedGlobal i.moduleName i.exportName)

def instantiate (m : Module) (w : W) : Option (Instance × List Value × W) := do
  let imported ← M.importedGlobals m
  let defined ← m.globals.defs.mapM (fun d => d.initializer.eval imported)
  let table ← m.tableSegments.foldlM (writeSegment imported) m.emptyTable
  let w ← M.initialMemory (m.memories.head?.map SizeConstraints.min) m.dataSegments w
  pure (⟨m, table⟩, imported ++ defined, w)

def run (m : Module) (w : W) (name : String) (args : List Value) : Part (Option (List Value × W)) :=
  match M.instantiate m w with
  | none => Part.some none
  | some (I, globals, w) => (eval (M.step I) (m.start name args globals w)).map State.result

def NestsWithin (limit : ℕ) (m : Module) (w : W) (name : String) (args : List Value) : Prop :=
  ∀ I globals w', M.instantiate m w = some (I, globals, w') →
    ∀ s, Reaches (M.step I) (m.start name args globals w') s → s.nesting ≤ limit

end Machine

end XosChain.Wasm
