import XosChain.Lib.Transition
import XosChain.Wasm.Invariant

namespace XosChain.Wasm

open StateTransition Relation Lib List Machine Constraints TransGen Injected Instance

section

variable {W : Type} (m : Module) (a : Additions) (fix : ℕ → ℕ)

def depthValues (calls : ℕ) : List Value :=
  if a.globals = [] then [] else [.i32 (UInt32.ofNat (maximumCallDepth - calls))]

def rewriteInvocation (p : Invocation) : Invocation := { p with function := p.function + a.imports.length }

def rewriteConfig (c : Config W) : Config W where
  frames := rewriteFrames m a fix c.frames
  pending := c.pending.map (rewriteInvocation a)
  results := c.results
  globals := c.globals ++ depthValues a (c.frames.length - 1)
  world := c.world

def rewriteState : State W → State W
  | .running c => .running (rewriteConfig m a fix c)
  | .trapped => .trapped

end

section

variable {W : Type} (M : Machine W) (I : Instance) (f : Frame) (fs : List Frame) (p : List Invocation)
  (r gs : List Value) (w : W) (code : List Instr)

section

variable {M I fs p r gs w code} {op : Instr} {d : Data W} {t : State W} {fr fr' : Frame} {n i : ℕ} {v v' : Value}
  {vs locals : List Value}

lemma step_data (hcode : fr.code = op :: code) (hk : op.kind = .data)
    (hd : M.effect I.module.pageLimit op ⟨fr.values, fr.locals, gs, w⟩ = some d) :
    M.step I (.running ⟨fr :: fs, p, r, gs, w⟩) = some (.running
      ⟨{ fr with code := code, values := d.values, locals := d.locals } :: fs, p, r, d.globals, d.world⟩) := by
  simp only [step, hcode, execute, hk, hd]

lemma step_control (hcode : fr.code = op :: code) (hk : op.kind = .control)
    (hc : { fr with code := code }.control op = .next fr') :
    M.step I (.running ⟨fr :: fs, p, r, gs, w⟩) = some (.running ⟨fr' :: fs, p, r, gs, w⟩) := by
  simp only [step, hcode, execute, hk, hc]

lemma effect_getGlobal (h : d.globals[i]? = some v) :
    M.effect n (.getGlobal i) d = some { d with values := v :: d.values } := by
  change d.globals[i]?.map _ = _
  rw [h]
  rfl

lemma effect_setLast :
    M.effect n (.setGlobal gs.length) ⟨v :: vs, locals, gs ++ [v'], w⟩ = some ⟨vs, locals, gs ++ [v], w⟩ := by
  change (if gs.length < (gs ++ [v']).length then _ else _) = _
  simp

lemma effect_eqz {v : UInt32} : M.effect n (.int (.eqz .i32)) ⟨.i32 v :: vs, locals, gs, w⟩ =
    some ⟨.i32 (if v = 0 then 1 else 0) :: vs, locals, gs, w⟩ := by
  change apply 1 _ _ = _
  simp [apply, takeArgs, M.eqz]

lemma effect_add {v v' : UInt32} : M.effect n (.int (.binop .i32 .add)) ⟨.i32 v' :: .i32 v :: vs, locals, gs, w⟩ =
    some ⟨.i32 (v + v') :: vs, locals, gs, w⟩ := by
  change apply 2 _ _ = _
  simp [apply, takeArgs, M.add]

lemma getElem?_last : (gs ++ [v])[gs.length]? = some v := by simp

end

lemma depthEnter_run (k : ℕ) {v : UInt32} (hv : v ≠ 0) :
    Reaches₁ (M.step I)
      (.running ⟨{ f with code := depthEnter gs.length k ++ code } :: fs, p, r, gs ++ [.i32 v], w⟩)
      (.running ⟨{ f with code := code } :: fs, p, r, gs ++ [.i32 (-1 + v)], w⟩) := by
  refine .head (step_data rfl rfl (effect_getGlobal getElem?_last)) ?_
  refine .head (step_data rfl rfl effect_eqz) ?_
  rw [if_neg hv]
  refine .head (step_control rfl rfl rfl) ?_
  refine .head (step_data rfl rfl rfl) ?_
  refine .head (step_data rfl rfl (effect_getGlobal getElem?_last)) ?_
  refine .head (step_data rfl rfl effect_add) ?_
  refine .head (step_data rfl rfl effect_setLast) ?_
  exact .single (step_control rfl rfl rfl)

lemma depthLeave_run (v : UInt32) :
    Reaches₁ (M.step I)
      (.running ⟨{ f with code := depthLeave gs.length ++ code } :: fs, p, r, gs ++ [.i32 v], w⟩)
      (.running ⟨{ f with code := code } :: fs, p, r, gs ++ [.i32 (v + 1)], w⟩) := by
  refine .head (step_data rfl rfl (effect_getGlobal getElem?_last)) ?_
  refine .head (step_data rfl rfl rfl) ?_
  refine .head (step_data rfl rfl effect_add) ?_
  exact .single ((step_data rfl rfl effect_setLast).trans rfl)

lemma injectedCall_step {k t : ℕ} {name : String} {ty : FunctionType}
    (hk : I.module.callee k = some ⟨ty, .inl ⟨t, injectedModuleName, name⟩⟩) (c : Config W) :
    M.execute I (.call k) f fs c =
      match takeArgs ty.parameters.length f.values with
      | none => .trapped
      | some (args, rest) =>
        match M.host injectedModuleName name args c.world with
        | none => .trapped
        | some (results, w) =>
          .running { c with frames := { f with values := results ++ rest } :: fs, world := w } := by
  simp only [execute, Instr.kind.eq_def, target.eq_def, hk, Option.map_some, call]
  cases takeArgs ty.parameters.length f.values with
  | none => rfl
  | some q => rfl

lemma checktime_step {k t : ℕ}
    (hk : I.module.callee k = some ⟨⟨.none, []⟩, .inl ⟨t, injectedModuleName, checktime.name⟩⟩) :
    M.step I (.running ⟨{ f with code := .call k :: code } :: fs, p, r, gs, w⟩) =
      some (.running ⟨{ f with code := code } :: fs, p, r, gs, w⟩) := by
  simp [step, injectedCall_step M I _ fs hk, takeArgs, M.checktime]

lemma depthEnter_trap {k t : ℕ}
    (hk : I.module.callee k = some ⟨⟨.none, []⟩, .inl ⟨t, injectedModuleName, callDepthAssert.name⟩⟩) :
    Reaches₁ (M.step I)
      (.running ⟨{ f with code := depthEnter gs.length k ++ code } :: fs, p, r, gs ++ [.i32 0], w⟩) .trapped := by
  refine .head (step_data rfl rfl (effect_getGlobal getElem?_last)) ?_
  refine .head (step_data rfl rfl effect_eqz) ?_
  refine .head (step_control rfl rfl rfl) ?_
  refine .single ?_
  simp [step, Frame.enterIf, Frame.enterBlock, injectedCall_step M I _ fs hk, takeArgs, M.callDepthAssert]

end

section

lemma decrement (n : ℕ) : (-1 : UInt32) + UInt32.ofNat (n + 1) = UInt32.ofNat n := by
  rw [UInt32.ofNat_add, UInt32.add_comm (UInt32.ofNat n), ← UInt32.add_assoc]
  exact UInt32.zero_add _

lemma increment (n : ℕ) : UInt32.ofNat n + 1 = UInt32.ofNat (n + 1) := by
  rw [UInt32.ofNat_add]
  rfl

lemma ofNat_ne_zero {n : ℕ} (h : n < maximumCallDepth) : UInt32.ofNat (n + 1) ≠ 0 := by
  have hlt : n + 1 < UInt32.size := lt_of_le_of_lt h (by decide)
  rw [Ne, ← UInt32.toNat_inj, UInt32.toNat_ofNat_of_lt' hlt]
  exact Nat.succ_ne_zero n

end

section

variable {W : Type} (M : Machine W) {m m' : Module} {a : Additions} {fix : ℕ → ℕ}

def suspendConfig (a : Additions) (calls : ℕ) (c : Config W) : Config W :=
  { c with pending := c.pending.map (rewriteInvocation a), globals := c.globals ++ depthValues a calls }

lemma depthValues_of_ne (h : a.globals ≠ []) (calls : ℕ) :
    depthValues a calls = [.i32 (UInt32.ofNat (maximumCallDepth - calls))] := if_neg h

lemma deliver_run (I : Instance) (results : List Value) {fs : List Frame} {c : Config W}
    (hglobals : c.globals.length = m.globals.size) (hfs : CallersOk m a fs) :
    Reaches (M.step I) ((suspendConfig a fs.length c).deliver results (fs.map (suspendFrame m a fix)))
      (rewriteState m a fix (c.deliver results fs)) := by
  cases fs with
  | nil => exact ReflTransGen.refl
  | cons f fs =>
    have hne : a.globals ≠ [] := hfs.callers.resolve_left (cons_ne_nil f fs)
    have hdepth : fs.length + 1 ≤ maximumCallDepth := hfs.depth
    have hcount : maximumCallDepth - (fs.length + 1) + 1 = maximumCallDepth - fs.length := by
      omega
    have hrun := depthLeave_run M I { rewriteFrame m a fix f with values := results ++ f.values }
      (fs.map (suspendFrame m a fix)) (c.pending.map (rewriteInvocation a)) c.results c.globals c.world
      (rewriteCode m a fix f.code) (UInt32.ofNat (maximumCallDepth - (fs.length + 1)))
    rw [increment, hcount, hglobals, ← depthValues_of_ne hne, ← depthValues_of_ne hne] at hrun
    exact hrun.to_reflTransGen

lemma enter_run (h : Rewritten m m' a fix) (table : List (Option ℕ)) (k : Callee) (args : List Value)
    {fs : List Frame} {c : Config W} (hglobals : c.globals.length = m.globals.size) (hfs : CallersOk m a fs) :
    Reaches (M.step ⟨m', table⟩)
      (M.enter (rewriteCallee m a fix k) args (fs.map (suspendFrame m a fix)) (suspendConfig a fs.length c))
      (rewriteState m a fix (M.enter k args fs c)) := by
  obtain ⟨type, i | d⟩ := k
  · simp only [enter, rewriteCallee, Sum.map_inl, id]
    have hworld : (suspendConfig a fs.length c).world = c.world := rfl
    rw [hworld]
    cases M.host i.moduleName i.exportName args c.world with
    | none => exact ReflTransGen.refl
    | some q => exact deliver_run M ⟨m', table⟩ q.1 (c := { c with world := q.2 }) hglobals hfs
  · obtain ⟨t, hk⟩ := h.callee_injected h.checktime
    exact ReflTransGen.single (checktime_step M ⟨m', table⟩ (rewriteFrame m a fix (Frame.ofCall type d args))
      (fs.map (suspendFrame m a fix)) _ _ _ _ _ hk)

def shiftCall (fix : ℕ → ℕ) : Instr → Instr
  | .call f => .call (fix f)
  | op => op

lemma rewriteOp_call {op : Instr} (hk : op.kind = .call) : m.rewriteOp a fix op =
    depthEnter m.globals.size (a.indexOf callDepthAssert.name) ++
      shiftCall fix op :: depthLeave m.globals.size := by
  cases op with
  | call f => rfl
  | callIndirect t => rfl
  | _ => cases hk

lemma shiftTable_entry (n : ℕ) (table : List (Option ℕ)) (i : ℕ) :
    ((shiftTable n table)[i]?).join = ((table[i]?).join).map (· + n) := by
  rw [shiftTable, getElem?_map]
  rcases table[i]? with _ | _ | f <;> rfl

lemma target_shift (h : Rewritten m m' a fix) (hm : m.Valid) (table : List (Option ℕ)) {op : Instr}
    (hop : m.validOp op = true) (f f' : Frame) (hf : f'.values = f.values) :
    target ⟨m', shiftTable a.imports.length table⟩ f' (shiftCall fix op) =
      (target ⟨m, table⟩ f op).map (fun q => (rewriteCallee m a fix q.1, { f' with values := q.2.values })) := by
  cases op with
  | call n =>
    have hn : n < m.functions.size := by simpa [Module.validOp] using hop
    simp only [shiftCall, target.eq_def, h.fix n hn, h.callee hm, Option.map_map]
    refine congrArg (fun g => (m.callee n).map g) (funext fun k => ?_)
    simp [← hf]
  | callIndirect t =>
    have ht : t < m.types.length := by simpa [Module.validOp] using hop
    simp only [shiftCall, target.eq_def, hf, shiftTable_entry, h.types_left ht]
    rcases f.values with _ | ⟨v, vs⟩
    · rfl
    · cases v with
      | i32 v =>
        dsimp only
        rcases (table[v.toNat]?).join with _ | n
        · rfl
        · simp only [Option.map_some, Option.bind_eq_bind, Option.bind_some, h.callee hm]
          rcases m.callee n with _ | k
          · rfl
          · simp only [Option.map_some, Option.bind_some, rewriteCallee]
            split_ifs <;> rfl
      | _ => rfl
  | _ => rfl

end

section

abbrev Matched {W : Type} (M : Machine W) (m m' : Module) (a : Additions) (fix : ℕ → ℕ) (table : List (Option ℕ))
    (op : Instr) (f : Frame) (fs : List Frame) (c : Config W) : Prop :=
  Reaches₁ (M.step ⟨m', shiftTable a.imports.length table⟩)
    (.running (rewriteConfig m a fix { c with frames := { f with code := op :: f.code } :: fs }))
    (rewriteState m a fix (M.execute ⟨m, table⟩ op f fs c))

variable {W : Type} (M : Machine W) {m m' : Module} {a : Additions} {fix : ℕ → ℕ} (table : List (Option ℕ))
  {op : Instr} {f : Frame} {fs : List Frame} {c : Config W}

section

variable (h : Rewritten m m' a fix) (hm : m.Valid) (hk : op.kind = .call) (hop : OpOk m a op) (hf : FrameOk m a f)
  (hfs : CallersOk m a fs) (hnesting : fs.length + 1 ≤ maximumCallDepth)
  (hglobals : c.globals.length = m.globals.size)

include h hm hk hop hf hfs hnesting hglobals

lemma call_step :
    Reaches (M.step ⟨m', shiftTable a.imports.length table⟩)
      (M.execute ⟨m', shiftTable a.imports.length table⟩ (shiftCall fix op) (suspendFrame m a fix f)
        (fs.map (suspendFrame m a fix)) (suspendConfig a (fs.length + 1) c))
      (rewriteState m a fix (M.execute ⟨m, table⟩ op f fs c)) := by
  have hk' : (shiftCall fix op).kind = .call := by cases op <;> first | rfl | cases hk
  have htarget := target_shift h hm table hop.1 f (suspendFrame m a fix f) rfl
  simp only [execute, hk, hk', htarget]
  cases hq : target ⟨m, table⟩ f op with
  | none => exact ReflTransGen.refl
  | some q =>
    obtain ⟨k, g⟩ := q
    obtain ⟨_, hg⟩ := target_eq_some hq
    simp only [Option.map_some, call, rewriteCallee]
    cases takeArgs k.type.parameters.length g.values with
    | none => exact ReflTransGen.refl
    | some q =>
      obtain ⟨args, rest⟩ := q
      have hg' : FrameOk m a { g with values := rest } := by
        rw [hg]
        exact hf.withValues _
      have hsuspend : { suspendFrame m a fix f with values := rest } =
          suspendFrame m a fix { g with values := rest } := by
        rw [hg]
        rfl
      have hcallers : CallersOk m a ({ g with values := rest } :: fs) :=
        ⟨forall_mem_cons.mpr ⟨hg', hfs.frames⟩, .inr (hop.2.of_call hk).2, hnesting⟩
      have hrun := enter_run M h (shiftTable a.imports.length table) k args hglobals hcallers
      rw [map_cons, ← hsuspend] at hrun
      exact hrun

lemma call_run : Matched M m m' a fix table op f fs c := by
  have hne := (hop.2.of_call hk).2
  have hcount : maximumCallDepth - fs.length = maximumCallDepth - (fs.length + 1) + 1 := by
    omega
  have hpos : UInt32.ofNat (maximumCallDepth - (fs.length + 1) + 1) ≠ 0 := by
    apply ofNat_ne_zero
    omega
  have henter := depthEnter_run M ⟨m', shiftTable a.imports.length table⟩ (rewriteFrame m a fix f)
    (fs.map (suspendFrame m a fix)) (c.pending.map (rewriteInvocation a)) c.results c.globals c.world
    (shiftCall fix op :: (depthLeave m.globals.size ++ rewriteCode m a fix f.code))
    (a.indexOf callDepthAssert.name) hpos
  rw [decrement, ← hcount, hglobals, ← depthValues_of_ne hne, ← depthValues_of_ne hne] at henter
  have hstart : rewriteConfig m a fix { c with frames := { f with code := op :: f.code } :: fs } =
      ⟨{ rewriteFrame m a fix f with
          code := depthEnter m.globals.size (a.indexOf callDepthAssert.name) ++
            shiftCall fix op :: (depthLeave m.globals.size ++ rewriteCode m a fix f.code) } ::
        fs.map (suspendFrame m a fix), c.pending.map (rewriteInvocation a), c.results,
        c.globals ++ depthValues a fs.length, c.world⟩ := by
    simp only [rewriteConfig, rewriteFrames, rewriteFrame, rewriteCode_cons, rewriteOp_call hk, append_assoc,
      cons_append, length_cons, Nat.add_sub_cancel]
  rw [Matched, hstart]
  exact trans_left (tail henter rfl) (call_step M table h hm hk hop hf hfs hnesting hglobals)

end

section

variable (h : Rewritten m m' a fix)

include h

lemma call_exceeded (hk : op.kind = .call) (hop : OpOk m a op)
    (hnesting : ¬ fs.length + 1 ≤ maximumCallDepth) (hglobals : c.globals.length = m.globals.size) :
    Reaches₁ (M.step ⟨m', table⟩)
      (.running (rewriteConfig m a fix { c with frames := { f with code := op :: f.code } :: fs })) .trapped := by
  obtain ⟨hassert, hne⟩ := hop.2.of_call hk
  have hdepth : depthValues a fs.length = [.i32 0] := by
    rw [depthValues_of_ne hne, Nat.sub_eq_zero_of_le (by omega)]
    rfl
  obtain ⟨t, hcallee⟩ := h.callee_injected (j := .callDepthAssert) hassert
  have htrap := depthEnter_trap M ⟨m', table⟩ (rewriteFrame m a fix f) (fs.map (suspendFrame m a fix))
    (c.pending.map (rewriteInvocation a)) c.results c.globals c.world
    (shiftCall fix op :: (depthLeave m.globals.size ++ rewriteCode m a fix f.code)) hcallee
  rw [hglobals, ← hdepth] at htrap
  simpa only [rewriteConfig, rewriteFrames, rewriteFrame, rewriteCode_cons, rewriteOp_call hk, append_assoc,
      cons_append, length_cons, Nat.add_sub_cancel] using htrap

lemma softfloat_run {op : FloatOp} (hop : OpOk m a (.float op)) (hc : op.isConvert = false) :
    Matched M m m' a fix table (.float op) f fs c := by
  obtain ⟨t, hcallee⟩ := h.callee_injected (j := .softfloat op hc) (hop.2 hc)
  have hcode : rewriteCode m a fix (.float op :: f.code) =
      .call (a.indexOf (softfloat op hc).name) :: rewriteCode m a fix f.code := by
    simp [rewriteCode_cons, Module.rewriteOp, hc, name]
  apply single
  simp only [rewriteConfig, rewriteFrames, rewriteFrame, hcode, step, Option.mem_def,
    injectedCall_step M ⟨m', shiftTable a.imports.length table⟩ _ _ hcallee]
  simp only [execute, Instr.kind.eq_def, effect.eq_def, apply, name, type,
    M.softfloat op hc]
  cases takeArgs op.type.parameters.length f.values with
  | none => rfl
  | some q =>
    cases hv : M.floatOp op q.1 with
    | none => simp [hv, rewriteState]
    | some v => simp [hv, rewriteState, rewriteConfig, rewriteFrames, rewriteFrame]

lemma data_run (hk : op.kind = .data) (hop : OpOk m a op) (hsame : m.rewriteOp a fix op = [op])
    (hglobals : c.globals.length = m.globals.size) :
    Matched M m m' a fix table op f fs c := by
  have hlimit : m'.pageLimit = m.pageLimit := by
    rw [h.module]
    rfl
  have heffect := effect_extend M m.pageLimit hop.1 (d := ⟨f.values, f.locals, c.globals, c.world⟩) hglobals
    (depthValues a fs.length)
  apply single
  simp only [rewriteConfig, rewriteFrames, rewriteFrame, rewriteCode_cons, hsame, singleton_append, step,
    execute, hk, hlimit, length_cons, Nat.add_sub_cancel, Option.mem_def]
  simp only [Data.extend] at heffect
  rw [heffect]
  cases M.effect m.pageLimit op ⟨f.values, f.locals, c.globals, c.world⟩ with
  | none => rfl
  | some d => rfl

lemma control_run (hk : op.kind = .control) (hfs : CallersOk m a fs) (hglobals : c.globals.length = m.globals.size) :
    Matched M m m' a fix table op f fs c := by
  by_cases hloop : ∃ t, op = .loop t
  · obtain ⟨t, rfl⟩ := hloop
    obtain ⟨i, hcallee⟩ := h.callee_injected h.checktime
    have hcheck := checktime_step M ⟨m', shiftTable a.imports.length table⟩
      (rewriteFrame m a fix (f.enterBlock 0 (.loop t :: f.code))) (fs.map (suspendFrame m a fix))
      (c.pending.map (rewriteInvocation a)) c.results
      (c.globals ++ depthValues a fs.length) c.world (rewriteCode m a fix f.code) hcallee
    exact head rfl (single hcheck)
  · have hsame : m.rewriteOp a fix op = [op] := by
      cases op with
      | loop t => exact absurd ⟨t, rfl⟩ hloop
      | call | callIndirect | float => cases hk
      | _ => rfl
    have hnot : ∀ t, op ≠ .loop t := fun t ht => hloop ⟨t, ht⟩
    have hcontrol := control_rewriteFrame m a fix f hnot
    have hstep : M.step ⟨m', shiftTable a.imports.length table⟩
        (.running (rewriteConfig m a fix { c with frames := { f with code := op :: f.code } :: fs })) =
        some (M.execute ⟨m', shiftTable a.imports.length table⟩ op (rewriteFrame m a fix f)
          (fs.map (suspendFrame m a fix)) (rewriteConfig m a fix { c with frames := { f with code := op :: f.code } :: fs })) := by
      simp only [rewriteConfig, rewriteFrames, rewriteFrame, rewriteCode_cons, hsame, singleton_append,
        step]
    refine head' hstep ?_
    simp only [execute, hk, hcontrol]
    cases f.control op with
    | next g => exact ReflTransGen.refl
    | exit results => exact deliver_run M ⟨m', shiftTable a.imports.length table⟩ results hglobals hfs
    | trap => exact ReflTransGen.refl

lemma execute_run (hm : m.Valid) (hop : OpOk m a op) (hf : FrameOk m a f) (hfs : CallersOk m a fs)
    (hnesting : op.kind = .call → fs.length + 1 ≤ maximumCallDepth)
    (hglobals : c.globals.length = m.globals.size) :
    Matched M m m' a fix table op f fs c := by
  cases hk : op.kind with
  | call => exact call_run M table h hm hk hop hf hfs (hnesting hk) hglobals
  | control => exact control_run M table h hk hfs hglobals
  | data =>
    by_cases hsoft : ∃ q : FloatOp, op = .float q ∧ q.isConvert = false
    · obtain ⟨q, rfl, hc⟩ := hsoft
      exact softfloat_run M table h hop hc
    · have hsame : m.rewriteOp a fix op = [op] := by
        cases op with
        | call | callIndirect | loop => cases hk
        | float q =>
          cases hc : q.isConvert with
          | true => simp [Module.rewriteOp, hc]
          | false => exact absurd ⟨q, rfl, hc⟩ hsoft
        | _ => rfl
      exact data_run M table h hk hop hsame hglobals

end

end

section

variable {W : Type} (M : Machine W) {m m' : Module} {a : Additions} {fix : ℕ → ℕ} (table : List (Option ℕ))
  {s t : State W}

def withinDepth (s : State W) : Prop := s.nesting ≤ maximumCallDepth

instance : DecidablePred (withinDepth (W := W)) := fun s => inferInstanceAs (Decidable (s.nesting ≤ _))

lemma step_run (h : Rewritten m m' a fix) (hm : m.Valid) (hs : StateOk m a s) (hdepth : withinDepth s)
    (hstep : M.step ⟨m, table⟩ s = some t) :
    Reaches₁ (M.step ⟨m', shiftTable a.imports.length table⟩) (rewriteState m a fix s) (rewriteState m a fix t) := by
  rcases s with ⟨⟨_ | ⟨f, fs⟩, p, r, gs, w⟩⟩ | _
  · cases p with
    | nil => cases hstep
    | cons p ps =>
      have hcallee := h.callee hm p.function
      simp only [step] at hstep
      cases hk : m.callee p.function with
      | none =>
        rw [hk] at hstep hcallee
        cases hstep
        apply single
        simp only [rewriteState, rewriteConfig, rewriteFrames, map_cons, rewriteInvocation, step, hcallee,
          Option.map_none, Option.mem_def]
      | some k =>
        rw [hk] at hstep hcallee
        cases hstep
        have henter := enter_run M h (shiftTable a.imports.length table) k p.arguments
          (c := ⟨[], ps, r, gs, w⟩) hs.globals ⟨hs.frames, .inl rfl, Nat.zero_le _⟩
        refine head' ?_ henter
        simp only [rewriteState, rewriteConfig, rewriteFrames, map_cons, rewriteInvocation, step, hcallee,
          Option.map_some, Option.mem_def]
        rfl
  · obtain ⟨_ | ⟨op, code⟩, vs, ls, lo, ar, bt⟩ := f
    · cases hstep
      exact single rfl
    · cases hstep
      have hf : FrameOk m a ⟨op :: code, vs, ls, lo, ar, bt⟩ := hs.frames _ mem_cons_self
      obtain ⟨hop, hcode⟩ := forall_mem_cons.mp hf.code
      refine execute_run M table h hm hop (hf.withCode hcode) (hs.callersOk rfl) (fun hk => ?_) hs.globals
      simpa [withinDepth, State.nesting, hk] using hdepth
  · cases hstep

lemma step_exceeded (h : Rewritten m m' a fix) (hs : StateOk m a s) (hdepth : ¬ withinDepth s) :
    Reaches₁ (M.step ⟨m', table⟩) (rewriteState m a fix s) .trapped := by
  rcases s with ⟨⟨_ | ⟨f, fs⟩, p, r, gs, w⟩⟩ | _
  · exact absurd (Nat.zero_le _) hdepth
  · have hfs : CallersOk m a fs := hs.callersOk rfl
    obtain ⟨_ | ⟨op, code⟩, vs, ls, lo, ar, bt⟩ := f
    · exact absurd hfs.depth hdepth
    · have hf : FrameOk m a ⟨op :: code, vs, ls, lo, ar, bt⟩ := hs.frames _ mem_cons_self
      have hop := (forall_mem_cons.mp hf.code).1
      by_cases hk : op.kind = .call
      · have hnesting : ¬ fs.length + 1 ≤ maximumCallDepth := by
          simpa [withinDepth, State.nesting, hk] using hdepth
        exact call_exceeded M table h hk hop hnesting hs.globals (f := ⟨code, vs, ls, lo, ar, bt⟩)
          (c := ⟨⟨op :: code, vs, ls, lo, ar, bt⟩ :: fs, p, r, gs, w⟩)
      · refine absurd hfs.depth ?_
        simpa [withinDepth, State.nesting, hk] using hdepth
  · exact absurd (Nat.zero_le _) hdepth

lemma step_none (I : Instance) (hstep : M.step ⟨m, table⟩ s = none) : M.step I (rewriteState m a fix s) = none := by
  rcases s with ⟨⟨_ | ⟨f, fs⟩, p, r, gs, w⟩⟩ | _
  · cases p with
    | nil => rfl
    | cons p ps =>
      simp only [step] at hstep
      cases hk : m.callee p.function <;> simp [hk] at hstep
  · simp only [step] at hstep
    cases hc : f.code <;> simp [hc] at hstep
  · rfl

theorem injected_respects (h : Rewritten m m' a fix) (hm : m.Valid) :
    Respects (guarded (M.step ⟨m, table⟩) withinDepth .trapped)
      (M.step ⟨m', shiftTable a.imports.length table⟩) (fun s s' => StateOk m a s ∧ s' = rewriteState m a fix s) := by
  rintro s _ ⟨hs, rfl⟩
  by_cases hdepth : withinDepth s
  · rw [guarded_of_ok hdepth]
    cases hstep : M.step ⟨m, table⟩ s with
    | none => exact step_none M table _ hstep
    | some t => exact ⟨_, ⟨step_ok M h hm table hs hdepth hstep, rfl⟩, step_run M table h hm hs hdepth hstep⟩
  · rw [guarded_of_not_ok hdepth]
    exact ⟨.trapped, ⟨trivial, rfl⟩, step_exceeded M _ h hs hdepth⟩

end

end XosChain.Wasm
