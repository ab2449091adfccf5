import XosChain.Wasm.Tracking

namespace XosChain.Wasm

open Lib List Wasm.Module Injected

namespace Module

variable (m : Module) (a : Additions)

def preCode : Instr → List Instr
  | .call f => depthEnter m.globals.size (m.functions.size + 2 * a.indexOf callDepthAssert.name) ++
      .call f :: depthLeave m.globals.size
  | .callIndirect t => depthEnter m.globals.size (m.functions.size + 2 * a.indexOf callDepthAssert.name) ++
      .callIndirect t :: depthLeave m.globals.size
  | .float op => if op.isConvert then [.float op] else [.call (m.functions.size + 2 * a.indexOf (injectWhichOp op))]
  | op => [op]

def preDef (d : FunctionDef) : FunctionDef := { d with code := d.code.flatMap (m.preCode a) }

def rewriteOp (fix : ℕ → ℕ) : Instr → List Instr
  | .call f => depthEnter m.globals.size (a.indexOf callDepthAssert.name) ++
      .call (fix f) :: depthLeave m.globals.size
  | .callIndirect t => depthEnter m.globals.size (a.indexOf callDepthAssert.name) ++
      .callIndirect t :: depthLeave m.globals.size
  | .loop t => [.loop t, .call (a.indexOf checktime.name)]
  | .float op => if op.isConvert then [.float op] else [.call (a.indexOf (injectWhichOp op))]
  | op => [op]

def rewriteDef (fix : ℕ → ℕ) (d : FunctionDef) : FunctionDef :=
  { d with code := .call (a.indexOf checktime.name) :: d.code.flatMap (m.rewriteOp a fix) }

end Module

def Additions.Covers (a : Additions) : Instr → Prop
  | .call _ | .callIndirect _ => a.Has callDepthAssert.name ∧ a.globals ≠ []
  | .float op => op.isConvert = false → a.Has (injectWhichOp op)
  | _ => True

section

variable {m : Module} {a b : Additions}

lemma Additions.Covers.mono {op : Instr} (hop : a.Covers op) (h : a ≤ b) : b.Covers op := by
  have hglobals : a.globals ≠ [] → b.globals ≠ [] := fun ha hb => ha (prefix_nil.mp (hb ▸ h.2.2))
  cases op with
  | call f => exact ⟨hop.1.mono h, hglobals hop.2⟩
  | callIndirect t => exact ⟨hop.1.mono h, hglobals hop.2⟩
  | float op => exact fun hc => (hop hc).mono h
  | _ => trivial

lemma preCode_mono {op : Instr} (hop : a.Covers op) (h : a ≤ b) : m.preCode b op = m.preCode a op := by
  cases op with
  | call f => rw [preCode, preCode, Additions.indexOf_mono h hop.1]
  | callIndirect t => rw [preCode, preCode, Additions.indexOf_mono h hop.1]
  | float op =>
    cases hc : op.isConvert with
    | true => simp [preCode, hc]
    | false => simp [preCode, hc, Additions.indexOf_mono h (hop hc)]
  | _ => rfl

lemma flatMap_preCode_mono {ops : List Instr} (hops : ∀ op ∈ ops, a.Covers op) (h : a ≤ b) :
    ops.flatMap (m.preCode b) = ops.flatMap (m.preCode a) :=
  flatMap_congr (fun op hop => preCode_mono (hops op hop) h)

end

section

variable {m : Module} {a : Additions} {s : Injector}

lemma addImport_chktmIdx (s : Injector) (t : FunctionType) (name : String) :
    (s.addImport t name).2.chktmIdx = s.chktmIdx := by
  simp only [Injector.addImport, Injector.register, Injector.addTypeSlot]
  split_ifs <;> rfl

lemma Tracks.addDepthGlobal (h : Tracks m a s) :
    ∃ b, a ≤ b ∧ Tracks m b s.addDepthGlobal ∧ b.globals = [callDepthGlobal] := by
  rcases h.depth with ⟨hidx, hglobals⟩ | ⟨hidx, hglobals⟩
  · have hmodule : s.module.addGlobal callDepthGlobal = m.extend (a.addGlobal callDepthGlobal) := by
      rw [h.module, extend_addGlobal]
    have hsize : (s.module.addGlobal callDepthGlobal).globals.size - 1 = m.globals.size := by
      rw [hmodule]
      simp [extend, Additions.addGlobal, IndexSpace.size, hglobals, ← Nat.add_assoc]
    have hb : (a.addGlobal callDepthGlobal).globals = [callDepthGlobal] := by simp [Additions.addGlobal, hglobals]
    simp only [Injector.addDepthGlobal, if_pos hidx, hsize]
    exact ⟨_, a.le_addGlobal _, ⟨hmodule, h.next, h.size, h.registered, h.mapped, h.unmapped, h.slots, h.typed,
      .inr ⟨rfl, hb⟩⟩, hb⟩
  · have hsize : s.module.globals.size - 1 = m.globals.size := by
      rw [h.module]
      simp [extend, IndexSpace.size, hglobals, ← Nat.add_assoc]
    have hne : s.globalIdx ≠ none := by simp [hidx]
    simp only [Injector.addDepthGlobal, if_neg hne, hsize]
    exact ⟨a, le_rfl, ⟨h.module, h.next, h.size, h.registered, h.mapped, h.unmapped, h.slots, h.typed,
      .inr ⟨rfl, hglobals⟩⟩, hglobals⟩

lemma Tracks.callDepthCheck (h : Tracks m a s) (op : Instr) : ∃ b, a ≤ b ∧
    Tracks m b (callDepthCheck.accept op s).2.2 ∧ (callDepthCheck.accept op s).2.2.chktmIdx = s.chktmIdx ∧
      b.Has callDepthAssert.name ∧ b.globals ≠ [] ∧ (callDepthCheck.accept op s).2.1 =
        depthEnter m.globals.size (m.functions.size + 2 * b.indexOf callDepthAssert.name) ++
          op :: depthLeave m.globals.size := by
  obtain ⟨c, hac, hc, hglobals⟩ := h.addDepthGlobal
  obtain ⟨b, hcb, hb, hhas, hindex⟩ := hc.addImport .callDepthAssert
  have hne : b.globals ≠ [] := by
    intro hnil
    have := hnil ▸ hcb.2.2
    simp [hglobals] at this
  have hidx : (s.addDepthGlobal.addImport callDepthAssert.type callDepthAssert.name).2.globalIdx =
      some m.globals.size := by
    rcases hb.depth with ⟨_, hnil⟩ | ⟨hidx, _⟩
    · exact absurd hnil hne
    · exact hidx
  have hchktm : s.addDepthGlobal.chktmIdx = s.chktmIdx := by
    simp only [Injector.addDepthGlobal]
    split_ifs <;> rfl
  refine ⟨b, hac.trans hcb, hb, (addImport_chktmIdx _ _ _).trans hchktm, hhas, hne, ?_⟩
  rw [← hindex]
  exact congrArg (fun g => depthEnter (g.getD 0) _ ++ op :: depthLeave (g.getD 0)) hidx

lemma Tracks.visit (h : Tracks m a s) (op : Instr) : ∃ b, a ≤ b ∧
    Tracks m b (Injector.visit preOpInjectors op s).2 ∧
      (Injector.visit preOpInjectors op s).2.chktmIdx = s.chktmIdx ∧
        (Injector.visit preOpInjectors op s).1 = m.preCode b op ∧ b.Covers op := by
  cases op with
  | call f =>
    obtain ⟨b, hab, hb, hchktm, hhas, hne, hcode⟩ := h.callDepthCheck (.call f)
    exact ⟨b, hab, hb, hchktm, hcode, hhas, hne⟩
  | callIndirect t =>
    obtain ⟨b, hab, hb, hchktm, hhas, hne, hcode⟩ := h.callDepthCheck (.callIndirect t)
    exact ⟨b, hab, hb, hchktm, hcode, hhas, hne⟩
  | float op =>
    cases hc : op.isConvert with
    | true =>
      rw [Injector.visit, preOpInjectors_convert hc]
      exact ⟨a, le_rfl, h, rfl, by simp [preCode, hc, passInjector], fun hf => nomatch hc.symm.trans hf⟩
    | false =>
      obtain ⟨b, hab, hb, hhas, hindex⟩ := h.addImport (.softfloat op hc)
      rw [Injector.visit, preOpInjectors_float hc]
      refine ⟨b, hab, hb, addImport_chktmIdx _ _ _, ?_, fun _ => hhas⟩
      simp only [preCode, hc]
      exact congrArg (fun k => [Instr.call k]) hindex
  | _ => exact ⟨a, le_rfl, h, rfl, rfl, trivial⟩

lemma Tracks.visitCode (h : Tracks m a s) (ops : List Instr) : ∃ b, a ≤ b ∧
    Tracks m b (Injector.visitCode preOpInjectors ops s).2 ∧
      (Injector.visitCode preOpInjectors ops s).2.chktmIdx = s.chktmIdx ∧
        (Injector.visitCode preOpInjectors ops s).1 = ops.flatMap (m.preCode b) ∧ ∀ op ∈ ops, b.Covers op := by
  induction ops generalizing a s with
  | nil => exact ⟨a, le_rfl, h, rfl, rfl, by simp⟩
  | cons op ops ih =>
    obtain ⟨c, hac, hc, hchktm, hcode, hop⟩ := h.visit op
    obtain ⟨b, hcb, hb, hchktm', hcodes, hops⟩ := ih hc
    refine ⟨b, hac.trans hcb, hb, hchktm'.trans hchktm, ?_, ?_⟩
    · rw [flatMap_cons, preCode_mono hop hcb, ← hcode, ← hcodes]
      rfl
    · intro op' hop'
      rcases mem_cons.mp hop' with rfl | hop'
      · exact hop.mono hcb
      · exact hops op' hop'

lemma Tracks.visitDefs (h : Tracks m a s) (defs : List FunctionDef) : ∃ b, a ≤ b ∧
    Tracks m b (Injector.visitDefs preOpInjectors [] defs s).2 ∧
      (Injector.visitDefs preOpInjectors [] defs s).2.chktmIdx = s.chktmIdx ∧
        (Injector.visitDefs preOpInjectors [] defs s).1 = defs.map (m.preDef b) ∧
          ∀ d ∈ defs, ∀ op ∈ d.code, b.Covers op := by
  induction defs generalizing a s with
  | nil => exact ⟨a, le_rfl, h, rfl, rfl, by simp⟩
  | cons d defs ih =>
    obtain ⟨c, hac, hc, hchktm, hcode, hd⟩ := h.visitCode d.code
    obtain ⟨b, hcb, hb, hchktm', hcodes, hdefs⟩ := ih hc
    refine ⟨b, hac.trans hcb, hb, hchktm'.trans hchktm, ?_, ?_⟩
    · rw [map_cons, preDef, flatMap_preCode_mono hd hcb, ← hcode, ← hcodes]
      rfl
    · intro d' hd'
      rcases mem_cons.mp hd' with rfl | hd'
      · exact fun op hop => (hd op hop).mono hcb
      · exact hdefs d' hd'

end

namespace Injector

variable (s : Injector)

def postCode : Instr → List Instr
  | .loop t => [.loop t, s.checktimeCall]
  | .call f => [.call (s.fixIndex f)]
  | op => [op]

lemma visit_post (op : Instr) : visit postOpInjectors op s = (s.postCode op, s) := by
  cases op <;> rfl

lemma visitCode_post (ops : List Instr) : visitCode postOpInjectors ops s = (ops.flatMap s.postCode, s) := by
  induction ops with
  | nil => rfl
  | cons op ops ih => simp only [visitCode, visit_post, ih, flatMap_cons]

lemma visitDefs_post (start : List Instr) (defs : List FunctionDef) :
    visitDefs postOpInjectors start defs s =
      (defs.map (fun d => { d with code := start ++ d.code.flatMap s.postCode }), s) := by
  induction defs with
  | nil => rfl
  | cons d defs ih => simp only [visitDefs, visitCode_post, ih, map_cons]

end Injector

lemma buildTypeSlots_find (types : List FunctionType) {key : List ℕ} {i : ℕ}
    (h : (Injector.buildTypeSlots types).find? key = some i) : ∃ t, types[i]? = some t ∧ t.slot = key := by
  have hfold : ∀ (l : List (FunctionType × ℕ)) (slots : FlatMap (List ℕ) ℕ),
      (∀ p ∈ l, types[p.2]? = some p.1) →
      (∀ k n, slots.find? k = some n → ∃ t, types[n]? = some t ∧ t.slot = k) →
      ∀ k n, (l.foldl (fun slots t => emplace slots t.1.slot t.2) slots).find? k = some n →
        ∃ t, types[n]? = some t ∧ t.slot = k := by
    intro l
    induction l with
    | nil => exact fun _ _ hs => hs
    | cons p l ih =>
      intro slots hl hs
      apply ih _ (fun q hq => hl q (mem_cons_of_mem p hq))
      simp only [emplace]
      split_ifs
      · exact hs
      · exact FlatMap.forall_set hs ⟨p.1, hl p mem_cons_self, rfl⟩
  refine hfold _ _ ?_ ?_ key i h
  · intro p hp
    exact mem_zipIdx_iff_getElem?.mp hp
  · intro k n hk
    simp at hk

structure Rewritten (m m' : Module) (a : Additions) (fix : ℕ → ℕ) : Prop where
  module : m' = (m.extend a).withDefs (m.functions.defs.map (m.rewriteDef a fix))
  fix : ∀ f < m.functions.size, fix f = f + a.imports.length
  checktime : a.Has checktime.name
  covers : ∀ d ∈ m.functions.defs, ∀ op ∈ d.code, a.Covers op
  depth : a.globals = [] ∨ a.globals = [callDepthGlobal]
  typed : ∀ i ∈ a.imports, ∃ j : Injected, i.moduleName = injectedModuleName ∧ i.exportName = j.name ∧
    (m.types ++ a.types)[i.type]? = some j.type

section

variable {m : Module} {a : Additions} {s : Injector}

section

variable (h : Tracks m a s)

include h

lemma Tracks.fixIndex_placeholder {name : String} (hn : a.Has name) :
    s.fixIndex (m.functions.size + 2 * a.indexOf name) = a.indexOf name := by
  rw [Injector.fixIndex, h.mapped _ hn]

lemma Tracks.fixIndex_of_lt {f : ℕ} (hf : f < m.functions.size) :
    s.fixIndex f = f + a.imports.length := by
  rw [Injector.fixIndex, h.unmapped f (.inl hf), h.size]

lemma Tracks.postCode_preCode {op : Instr} (hop : a.Covers op)
    (hchktm : s.checktimeCall = .call (a.indexOf checktime.name)) :
    (m.preCode a op).flatMap s.postCode = m.rewriteOp a s.fixIndex op := by
  cases op with
  | call f =>
    simp [preCode, rewriteOp, depthEnter, depthLeave, Injector.postCode,
      h.fixIndex_placeholder hop.1]
  | callIndirect t =>
    simp [preCode, rewriteOp, depthEnter, depthLeave, Injector.postCode,
      h.fixIndex_placeholder hop.1]
  | loop t => simp [preCode, rewriteOp, Injector.postCode, hchktm]
  | float op =>
    cases hc : op.isConvert with
    | true => simp [preCode, rewriteOp, Injector.postCode, hc]
    | false => simp [preCode, rewriteOp, Injector.postCode, hc, h.fixIndex_placeholder (hop hc)]
  | _ => rfl

lemma Tracks.addChecktime : ∃ b, a ≤ b ∧ Tracks m b s.addChecktime ∧
    b.Has checktime.name ∧
      s.addChecktime.chktmIdx = m.functions.size + 2 * b.indexOf checktime.name := by
  obtain ⟨b, hab, hb, hhas, hindex⟩ := h.addImport .checktime
  exact ⟨b, hab, ⟨hb.module, hb.next, hb.size, hb.registered, hb.mapped, hb.unmapped, hb.slots, hb.typed, hb.depth⟩,
    hhas, hindex⟩

lemma Tracks.pass {name : String} (hn : a.Has name) (hidx : s.chktmIdx = m.functions.size + 2 * a.indexOf name) :
    ∃ b t, a ≤ b ∧ Tracks m b t ∧
      t.checktimeCall = .call (b.indexOf name) ∧ (∀ d ∈ m.functions.defs, ∀ op ∈ d.code, b.Covers op) ∧
        s.pass preOpInjectors [] =
          { t with module := (m.extend b).withDefs (m.functions.defs.map (m.preDef b)) } := by
  obtain ⟨b, hab, hb, hchktm, hcode, hcovers⟩ := h.visitDefs m.functions.defs
  have hdefs : s.module.functions.defs = m.functions.defs := by rw [h.module]; rfl
  refine ⟨b, _, hab, hb, ?_, hcovers, ?_⟩
  · rw [Injector.checktimeCall, hchktm, hidx, ← Additions.indexOf_mono hab hn, hb.mapped _ (hn.mono hab)]
    rfl
  · simp only [Injector.pass, hdefs, hcode, hb.module]

lemma Tracks.finish : ∃ b fix, Rewritten m s.finish.module b fix := by
  obtain ⟨c, hac, hc, hhas, hidx⟩ := h.addChecktime
  obtain ⟨b, t, hcb, hb, hcall, hcovers, hpass⟩ := hc.pass hhas hidx
  refine ⟨b, t.fixIndex, ?_, fun f hf => hb.fixIndex_of_lt hf, hhas.mono hcb, hcovers,
    hb.depth.imp And.right And.right, hb.typed⟩
  rw [Injector.finish, hpass, Injector.pass, Injector.visitDefs_post]
  have hdef : ∀ d ∈ m.functions.defs,
      { m.preDef b d with code := [t.checktimeCall] ++ (m.preDef b d).code.flatMap t.postCode } =
        m.rewriteDef b t.fixIndex d := by
    intro d hd
    rw [rewriteDef, preDef, flatMap_assoc, hcall,
      flatMap_congr (fun op hop => hb.postCode_preCode (hcovers d hd op hop) hcall)]
    rfl
  rw [← map_congr_left hdef]
  simp only [withDefs, map_map]
  rfl

end

lemma extend_nil (m : Module) : m.extend ⟨[], [], []⟩ = m := by
  have hexport : Export.shift 0 = id := by
    funext e
    simp [Export.shift]
  have hsegment : TableSegment.shift 0 = id := by
    funext t
    simp [TableSegment.shift]
  simp [extend, hexport, hsegment]

lemma tracks_init (m : Module) :
    Tracks m.maxMemoryInject ⟨[], [], []⟩ { Injector.init m with module := m.maxMemoryInject } where
  module := (extend_nil _).symm
  next := rfl
  size := rfl
  registered name := by simp [Injector.init, Additions.Has]
  mapped k hk := nomatch hk
  unmapped f _ := rfl
  slots key i hi := by
    rw [append_nil]
    exact buildTypeSlots_find m.types hi
  typed i hi := nomatch hi
  depth := .inl ⟨rfl, rfl⟩

lemma inject_rewritten (m : Module) : ∃ a fix, Rewritten m.maxMemoryInject m.inject a fix :=
  (tracks_init m).finish

end

lemma Rewritten.importAt {m m' : Module} {a : Additions} {fix : ℕ → ℕ} (h : Rewritten m m' a fix) {j : Injected}
    (hj : a.Has j.name) : ∃ t, m'.functions.imports[a.indexOf j.name]? = some ⟨t, injectedModuleName, j.name⟩ ∧
      m'.types[t]? = some j.type := by
  obtain ⟨i, hi, hname⟩ := Additions.getElem?_indexOf hj
  obtain ⟨j', hmodule, hj', ht⟩ := h.typed i (mem_of_getElem? hi)
  obtain rfl := name_injective (hname.symm.trans hj')
  have heq : i = ⟨i.type, injectedModuleName, j.name⟩ := by rw [← hmodule, ← hname]
  rw [h.module]
  exact ⟨i.type, getElem?_of_prefix (prefix_append _ _) (heq ▸ hi), ht⟩

end XosChain.Wasm
