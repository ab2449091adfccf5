import XosChain.Wasm.Simulation
import XosChain.Wasm.Validation

namespace XosChain.Wasm

open StateTransition Relation Lib List Constraints Option Machine State

structure SameFunctions (m m' : Module) (a : Additions) (fix : ℕ → ℕ) : Prop where
  imports : m'.functions.imports = a.imports ++ m.functions.imports
  functions : ∀ f, m'.callee (f + a.imports.length) = (m.callee f).map (rewriteCallee m a fix)
  exports : ∀ name, m'.exportNamed name = (m.exportNamed name).map (· + a.imports.length)
  start : m'.startFunctionIndex = m.startFunctionIndex.map (· + a.imports.length)
  table : m'.tableSegments = m.tableSegments.map (TableSegment.shift a.imports.length)
  directCalls : ∀ d ∈ m.functions.defs, ∀ f, .call f ∈ d.code → fix f = f + a.imports.length
  injectedCalls : ∀ j : Injected, a.Has j.name →
    ∃ t, m'.callee (a.indexOf j.name) = some ⟨j.type, .inl ⟨t, injectedModuleName, j.name⟩⟩

section

variable {W : Type} (M : Machine W) {m m' : Module} {a : Additions} {fix : ℕ → ℕ}

lemma Rewritten.sameFunctions (h : Rewritten m m' a fix) (hm : m.Valid) : SameFunctions m m' a fix where
  imports := by rw [h.module]; rfl
  functions := h.callee hm
  exports := h.exportNamed
  start := by rw [h.module]; rfl
  table := by rw [h.module]; rfl
  directCalls d hd f hf := by
    apply h.fix
    simpa [Module.validOp] using hm.bodies d hd _ hf
  injectedCalls j hj := h.callee_injected hj

lemma depthValues_initial (h : Rewritten m m' a fix) (imported : List Value) :
    a.globals.mapM (fun d => d.initializer.eval imported) = some (depthValues a 0) := by
  rcases h.depth with hnil | hone
  · simp [hnil, depthValues]
  · simp [hone, depthValues, callDepthGlobal, InitializerExpression.eval]

lemma instantiate_rewritten (h : Rewritten m m' a fix) (w : W) :
    M.instantiate m' w = (M.instantiate m w).map
      (fun q => (⟨m', shiftTable a.imports.length q.1.table⟩, q.2.1 ++ depthValues a 0, q.2.2)) := by
  have himported : M.importedGlobals m' = M.importedGlobals m := by
    rw [h.module]
    rfl
  have hdefs : m'.globals.defs = m.globals.defs ++ a.globals := by
    rw [h.module]
    rfl
  have htables : m'.emptyTable = shiftTable a.imports.length m.emptyTable := by
    have hsame : m'.emptyTable = m.emptyTable := by
      rw [h.module]
      rfl
    rw [hsame, shiftTable]
    cases ht : m.tables <;> simp [Module.emptyTable, ht]
  have hsegments : m'.tableSegments = m.tableSegments.map (TableSegment.shift a.imports.length) := by
    rw [h.module]
    rfl
  have hmemories : m'.memories = m.memories := by
    rw [h.module]
    rfl
  have hdata : m'.dataSegments = m.dataSegments := by
    rw [h.module]
    rfl
  simp only [instantiate, himported, hdefs, htables, hsegments, hmemories, hdata, mapM_append,
    depthValues_initial h, foldlM_writeSegment_shift]
  cases M.importedGlobals m with
  | none => rfl
  | some imported =>
    cases hd : m.globals.defs.mapM (fun d => d.initializer.eval imported) with
    | none => simp [hd]
    | some defined =>
      cases ht : m.tableSegments.foldlM (writeSegment imported) m.emptyTable with
      | none => simp [hd, ht]
      | some table =>
        cases M.initialMemory (m.memories.head?.map SizeConstraints.min) m.dataSegments w <;> simp [hd, ht]

lemma mapM_length {α β : Type} {f : α → Option β} {xs : List α} {ys : List β} (h : xs.mapM f = some ys) :
    ys.length = xs.length := by
  induction xs generalizing ys with
  | nil =>
    cases h
    rfl
  | cons x xs ih =>
    rw [mapM_cons] at h
    obtain ⟨y, _, h⟩ := bind_eq_some_iff.mp h
    obtain ⟨zs, hzs, h⟩ := bind_eq_some_iff.mp h
    cases h
    rw [length_cons, length_cons, ih hzs]

lemma instantiate_eq_some {w w' : W} {I : Instance} {globals : List Value}
    (h : M.instantiate m w = some (I, globals, w')) : I = ⟨m, I.table⟩ ∧ globals.length = m.globals.size := by
  obtain ⟨imported, himported, h⟩ := bind_eq_some_iff.mp h
  obtain ⟨defined, hdefined, h⟩ := bind_eq_some_iff.mp h
  obtain ⟨table, _, h⟩ := bind_eq_some_iff.mp h
  obtain ⟨world, _, h⟩ := bind_eq_some_iff.mp h
  cases h
  refine ⟨rfl, ?_⟩
  rw [length_append, mapM_length himported, mapM_length hdefined]
  rfl

end

section

variable {W : Type} (M : Machine W) {m m' : Module} {a : Additions} {fix : ℕ → ℕ} (table : List (Option ℕ))

lemma rewriteState_result (s : State W) : (rewriteState m a fix s).result = s.result := by
  cases s <;> rfl

lemma eval_rewritten (h : Rewritten m m' a fix) (hm : m.Valid) {s : State W} (hs : StateOk m a s) :
    (eval (M.step ⟨m', shiftTable a.imports.length table⟩) (rewriteState m a fix s)).map result =
      (eval (guarded (M.step ⟨m, table⟩) withinDepth .trapped) s).map result := by
  have hrespects := injected_respects M table h hm
  ext r
  rw [Part.mem_map_iff, Part.mem_map_iff]
  constructor
  · rintro ⟨t', ht', hr⟩
    obtain ⟨t, ⟨_, rfl⟩, ht⟩ := tr_eval_rev hrespects ⟨hs, rfl⟩ ht'
    exact ⟨t, ht, (rewriteState_result t).symm.trans hr⟩
  · rintro ⟨t, ht, hr⟩
    obtain ⟨t', ⟨_, rfl⟩, ht'⟩ := tr_eval hrespects ⟨hs, rfl⟩ ht
    exact ⟨_, ht', (rewriteState_result t).trans hr⟩

lemma start_rewritten (h : Rewritten m m' a fix) (name : String) (args globals : List Value) (w : W) :
    m'.start name args (globals ++ depthValues a 0) w = rewriteState m a fix (m.start name args globals w) := by
  have hstart : m'.startFunctionIndex = m.startFunctionIndex.map (· + a.imports.length) := by
    rw [h.module]
    rfl
  simp only [Module.start, h.exportNamed, hstart]
  cases m.exportNamed name with
  | none => rfl
  | some f =>
    cases m.startFunctionIndex <;> rfl

variable {globals : List Value} {args : List Value}

lemma start_ok (hglobals : globals.length = m.globals.size) (name : String)
    (args : List Value) (w : W) : StateOk m a (m.start name args globals w) := by
  simp only [Module.start]
  cases m.exportNamed name with
  | none => trivial
  | some f => exact ⟨fun f hf => absurd hf not_mem_nil, .inl (Nat.zero_le _), Nat.zero_le _, hglobals⟩

lemma run_rewritten (h : Rewritten m m' a fix) (hm : m.Valid) {w w' : W} {I : Instance}
    (hI : M.instantiate m w = some (I, globals, w')) (name : String) (args : List Value) :
    M.run m' w name args =
      (eval (guarded (M.step I) withinDepth .trapped) (m.start name args globals w')).map result := by
  obtain ⟨hmodule, hglobals⟩ := instantiate_eq_some M hI
  rw [hmodule, ← eval_rewritten M I.table h hm (start_ok hglobals name args w'), ← start_rewritten h]
  simp only [run, instantiate_rewritten M h, hI, map_some]

lemma run_of_nestsWithin (h : Rewritten m m' a fix) (hm : m.Valid) {w : W} {name : String}
    (hnests : M.NestsWithin maximumCallDepth m w name args) :
    M.run m' w name args = M.run m w name args := by
  cases hI : M.instantiate m w with
  | none => simp only [run, instantiate_rewritten M h, hI, map_none]
  | some q =>
    obtain ⟨I, globals, w'⟩ := q
    have hdepth : ∀ t, Reaches (M.step I) (m.start name args globals w') t → withinDepth t := hnests I globals w' hI
    rw [run_rewritten M h hm hI, eval_guarded hdepth]
    simp only [run, hI]

lemma run_of_not_nestsWithin (h : Rewritten m m' a fix) (hm : m.Valid) {w : W} {name : String}
    (hnests : ¬ M.NestsWithin maximumCallDepth m w name args) :
    M.run m' w name args = Part.some none := by
  simp only [NestsWithin, not_forall] at hnests
  obtain ⟨I, globals, w', hI, s, hreach, hbad⟩ := hnests
  have htrap : trapped ∈ eval (guarded (M.step I) withinDepth .trapped) (m.start name args globals w') :=
    mem_eval_guarded rfl (Nat.zero_le _) hreach hbad
  rw [run_rewritten M h hm hI, Part.eq_some_iff]
  exact Part.mem_map result htrap

end

theorem Module.inject_preserves_runs (m : Module) (hm : m.Valid) :
    ∃ a fix, Rewritten m.maxMemoryInject m.inject a fix ∧ SameFunctions m.maxMemoryInject m.inject a fix ∧
      ∀ (W : Type) (M : Machine W) (w : W) (name : String) (args : List Value),
        (M.NestsWithin maximumCallDepth m.maxMemoryInject w name args →
          M.run m.inject w name args = M.run m.maxMemoryInject w name args) ∧
        (¬ M.NestsWithin maximumCallDepth m.maxMemoryInject w name args →
          M.run m.inject w name args = Part.some none) := by
  have hlimited : m.maxMemoryInject.Valid := ⟨hm.importTypes, hm.defTypes, hm.bodies⟩
  obtain ⟨a, fix, h⟩ := inject_rewritten m
  refine ⟨a, fix, h, h.sameFunctions hlimited, fun W M w name args => ⟨fun hnests => ?_, fun hnests => ?_⟩⟩
  · exact run_of_nestsWithin M h hlimited hnests
  · exact run_of_not_nestsWithin M h hlimited hnests

def growingModule : Module where
  types := [Validation.applyType]
  functions := ⟨[], [⟨0, [], [.i32Const 600, .growMemory, .drop, .end_], []⟩]⟩
  tables := []
  memories := [⟨1, 65536⟩]
  globals := ⟨[], []⟩
  exports := [⟨"apply", .function, 0⟩]
  dataSegments := []
  tableSegments := []
  startFunctionIndex := none

def callingModule : Module :=
  { growingModule with
    types := [Validation.applyType, ⟨.none, []⟩]
    functions := ⟨[],
      [⟨0, [], [.call 1, .i32Const 0, .callIndirect 1, .i32Const 600, .growMemory, .drop, .end_], []⟩,
        ⟨1, [], [.f32Const 0, .f32Const 0, .float (.binop .f32 .add), .drop, .end_], []⟩]⟩
    tables := [⟨1, 1⟩]
    tableSegments := [⟨0, .i32Const 0, [1]⟩]
    startFunctionIndex := some 1 }

theorem callingModule_inject_preserves_runs : callingModule.Valid ∧
    ∃ a fix, Rewritten callingModule.maxMemoryInject callingModule.inject a fix ∧
      SameFunctions callingModule.maxMemoryInject callingModule.inject a fix ∧
      ∀ (W : Type) (M : Machine W) (w : W) (name : String) (args : List Value),
        (M.NestsWithin maximumCallDepth callingModule.maxMemoryInject w name args →
          M.run callingModule.inject w name args = M.run callingModule.maxMemoryInject w name args) ∧
        (¬ M.NestsWithin maximumCallDepth callingModule.maxMemoryInject w name args →
          M.run callingModule.inject w name args = Part.some none) := by
  have hvalid : callingModule.Valid := ⟨by decide, by decide, by decide⟩
  exact ⟨hvalid, callingModule.inject_preserves_runs hvalid⟩

section

def pageMachine : Machine ℕ where
  intOp
    | .eqz .i32, [.i32 v] => some (.i32 (if v = 0 then 1 else 0))
    | .binop .i32 .add, [.i32 v, .i32 v'] => some (.i32 (v + v'))
    | _, _ => none
  floatOp _ _ := none
  load _ _ _ _ := none
  store _ _ _ _ _ := none
  pages w := w
  resize n _ := n
  initialMemory min _ _ := some (min.getD 0)
  importedGlobal _ _ := none
  host _ name _ w := if name = Injected.checktime.name then some ([], w) else none
  eqz _ := rfl
  add _ _ := rfl
  checktime _ := if_pos rfl
  callDepthAssert _ := if_neg (by decide)
  softfloat op hc _ _ := if_neg (fun hname => by
    have hsame : Injected.softfloat op hc = Injected.checktime := Injected.name_injective hname
    cases hsame)

lemma run_eq_some {W : Type} {M : Machine W} {m : Module} {w w' : W} {name : String} {args : List Value} (n : ℕ)
    (I : Instance) (globals : List Value) (t : State W) (hI : M.instantiate m w = some (I, globals, w'))
    (hrun : (·.bind (M.step I))^[n + 1] (some (m.start name args globals w')) = some t)
    (hend : M.step I t = none) : M.run m w name args = Part.some t.result := by
  have hmem : t ∈ eval (M.step I) (m.start name args globals w') :=
    mem_eval.mpr ⟨(reaches₁_of_iterate n hrun).to_reflTransGen, hend⟩
  simp only [run, hI]
  rw [Part.eq_some_iff]
  exact Part.mem_map result hmem

def applyArgs : List Value := [.i64 0, .i64 0, .i64 0]

lemma growingModule_run : pageMachine.run growingModule 0 "apply" applyArgs = Part.some (some ([], 601)) :=
  run_eq_some 4 ⟨growingModule, []⟩ [] (.running ⟨[], [], [], [], 601⟩) rfl rfl rfl

lemma growingModule_inject_run :
    pageMachine.run growingModule.inject 0 "apply" applyArgs = Part.some (some ([], 1)) :=
  run_eq_some 5 ⟨growingModule.inject, []⟩ [] (.running ⟨[], [], [], [], 1⟩) rfl rfl rfl

lemma growingModule_nests :
    pageMachine.NestsWithin maximumCallDepth growingModule 0 "apply" applyArgs := by
  intro I globals w' hI s hreach
  cases hI
  have hall : runsWithin (pageMachine.step ⟨growingModule, []⟩) (fun s => decide (withinDepth s)) 6
      (growingModule.start "apply" applyArgs [] 1) = true := by
    decide +kernel
  have hok := runsWithin_reaches hall hreach
  exact of_decide_eq_true (p := withinDepth s) hok

theorem growth_is_limited : Validation.validate growingModule true = .ok () ∧ growingModule.Valid ∧
    pageMachine.NestsWithin maximumCallDepth growingModule 0 "apply" applyArgs ∧
    pageMachine.run growingModule.inject 0 "apply" applyArgs ≠ pageMachine.run growingModule 0 "apply" applyArgs := by
  refine ⟨by decide +kernel, ⟨by decide, by decide, by decide⟩, growingModule_nests, ?_⟩
  rw [growingModule_run, growingModule_inject_run]
  intro h
  have hpages := Part.some_injective h
  revert hpages
  decide

end

end XosChain.Wasm
