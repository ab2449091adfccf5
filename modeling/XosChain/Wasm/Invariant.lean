import XosChain.Wasm.Rewriting

namespace XosChain.Wasm

open List Constraints Option Machine Instance

section

variable {W : Type} (m : Module) (a : Additions)

def OpOk (op : Instr) : Prop := m.validOp op = true ∧ a.Covers op

structure FrameOk (f : Frame) : Prop where
  code : ∀ op ∈ f.code, OpOk m a op
  labels : ∀ l ∈ f.labels, ∀ op ∈ l.target, OpOk m a op

structure ConfigOk (c : Config W) : Prop where
  frames : ∀ f ∈ c.frames, FrameOk m a f
  callers : c.frames.length ≤ 1 ∨ a.globals ≠ []
  depth : c.frames.length ≤ maximumCallDepth + 1
  globals : c.globals.length = m.globals.size

def StateOk : State W → Prop
  | .running c => ConfigOk m a c
  | .trapped => True

end

section

variable {m : Module} {a : Additions} {f g : Frame}

lemma skipToEnd_subset (depth : ℕ) (code : List Instr) : skipToEnd depth code ⊆ code := by
  induction code generalizing depth with
  | nil => exact List.Subset.refl _
  | cons op code ih =>
    simp only [skipToEnd]
    split_ifs
    · exact subset_cons_of_subset op (ih _)
    · cases depth with
      | zero => exact subset_cons_self op code
      | succ depth => exact subset_cons_of_subset op (ih _)
    · exact subset_cons_of_subset op (ih _)

lemma skipToElse_subset (depth : ℕ) (code : List Instr) : (skipToElse depth code).2 ⊆ code := by
  induction code generalizing depth with
  | nil => exact List.Subset.refl _
  | cons op code ih =>
    simp only [skipToElse]
    split_ifs
    · exact subset_cons_of_subset op (ih _)
    · cases depth with
      | zero => exact subset_cons_self op code
      | succ depth => exact subset_cons_of_subset op (ih _)
    · exact subset_cons_self op code
    · exact subset_cons_of_subset op (ih _)

section

variable (h : FrameOk m a f)

include h

lemma FrameOk.withValues (values : List Value) : FrameOk m a { f with values := values } :=
  ⟨h.code, h.labels⟩

lemma FrameOk.withCode {code : List Instr} (hcode : ∀ op ∈ code, OpOk m a op) :
    FrameOk m a { f with code := code } := ⟨hcode, h.labels⟩

lemma FrameOk.enterBlock (arity : ℕ) {target : List Instr} (htarget : ∀ op ∈ target, OpOk m a op) :
    FrameOk m a (f.enterBlock arity target) := by
  refine ⟨h.code, fun l hl => ?_⟩
  rcases mem_cons.mp hl with rfl | hl
  · exact htarget
  · exact h.labels l hl

lemma FrameOk.enterIf (result : UInt8) (condition : UInt32) :
    FrameOk m a (f.enterIf result condition) := by
  have hinner := h.enterBlock (blockArity result) (fun op hop => h.code op (skipToEnd_subset 0 f.code hop))
  have helse := fun op hop => h.code op (skipToElse_subset 0 f.code hop)
  simp only [Frame.enterIf]
  split_ifs
  · exact hinner
  · rcases hskip : skipToElse 0 f.code with ⟨_ | _, code⟩ <;> rw [hskip] at helse
    · exact h.withCode helse
    · exact hinner.withCode helse

lemma FrameOk.branch {depth : ℕ} (hg : f.branch depth = .next g) : FrameOk m a g := by
  simp only [Frame.branch] at hg
  cases hl : f.labels[depth]? with
  | some l =>
    rw [hl] at hg
    cases hg
    exact ⟨h.labels l (mem_of_getElem? hl), fun l' hl' => h.labels l' (mem_of_mem_drop hl')⟩
  | none =>
    rw [hl] at hg
    split_ifs at hg
    cases hg

lemma FrameOk.control {op : Instr} (hop : OpOk m a op) (hg : f.control op = .next g) :
    FrameOk m a g := by
  have hlabels := h.labels
  cases op with
  | block t =>
    cases hg
    exact h.enterBlock _ (fun op hop => h.code op (skipToEnd_subset 0 f.code hop))
  | loop t =>
    cases hg
    exact h.enterBlock _ (forall_mem_cons.mpr ⟨hop, h.code⟩)
  | if_ t =>
    simp only [Frame.control.eq_def] at hg
    split at hg
    · cases hg
      exact (h.withValues _).enterIf _ _
    · cases hg
  | else_ =>
    simp only [Frame.control.eq_def] at hg
    split at hg
    · cases hg
    · next l ls hl =>
      cases hg
      rw [hl] at hlabels
      exact ⟨hlabels l mem_cons_self, fun l' hl' => hlabels l' (mem_cons_of_mem l hl')⟩
  | end_ =>
    simp only [Frame.control.eq_def] at hg
    split at hg
    · cases hg
    · next l ls hl =>
      cases hg
      rw [hl] at hlabels
      exact ⟨h.code, fun l' hl' => hlabels l' (mem_cons_of_mem l hl')⟩
  | br d => exact h.branch hg
  | brIf d =>
    simp only [Frame.control.eq_def] at hg
    split at hg
    · split_ifs at hg
      · exact (h.withValues _).branch hg
      · cases hg
        exact h.withValues _
    · cases hg
  | brTable d k =>
    simp only [Frame.control.eq_def] at hg
    split at hg
    · exact (h.withValues _).branch hg
    · cases hg
  | _ => cases hg

end

end

section

variable {W : Type} (M : Machine W) {m m' : Module} {a : Additions} {fix : ℕ → ℕ} {fs : List Frame} {c : Config W}

variable {op : Instr} {k : Callee} {f : Frame}

lemma target_eq_some {I : Instance} {f g : Frame} (h : I.target f op = some (k, g)) :
    (∃ n, I.module.callee n = some k) ∧ g = { f with values := g.values } := by
  cases op with
  | call n =>
    obtain ⟨k', hk, heq⟩ := map_eq_some_iff.mp h
    cases heq
    exact ⟨⟨n, hk⟩, rfl⟩
  | callIndirect t =>
    simp only [target] at h
    split at h
    · obtain ⟨n, _, h⟩ := bind_eq_some_iff.mp h
      obtain ⟨k', hk, h⟩ := bind_eq_some_iff.mp h
      split_ifs at h
      cases h
      exact ⟨⟨n, hk⟩, rfl⟩
    · cases h
  | _ => cases h

lemma callee_def_mem {n : ℕ} {t : FunctionType} {d : FunctionDef} (h : m.callee n = some ⟨t, .inr d⟩) :
    d ∈ m.functions.defs := by
  rw [Module.callee] at h
  split_ifs at h
  · obtain ⟨i, _, h⟩ := bind_eq_some_iff.mp h
    obtain ⟨t', _, h⟩ := map_eq_some_iff.mp h
    cases h
  · obtain ⟨d', hd, h⟩ := bind_eq_some_iff.mp h
    obtain ⟨t', _, h⟩ := map_eq_some_iff.mp h
    cases h
    exact mem_of_getElem? hd

lemma ofCall_ok (h : Rewritten m m' a fix) (hm : m.Valid) {d : FunctionDef} (hd : d ∈ m.functions.defs)
    (t : FunctionType) (args : List Value) : FrameOk m a (Frame.ofCall t d args) :=
  ⟨fun op hop => ⟨hm.bodies d hd op hop, h.covers d hd op hop⟩, fun _ hl => absurd hl not_mem_nil⟩

structure CallersOk (m : Module) (a : Additions) (fs : List Frame) : Prop where
  frames : ∀ f ∈ fs, FrameOk m a f
  callers : fs = [] ∨ a.globals ≠ []
  depth : fs.length ≤ maximumCallDepth

lemma CallersOk.config (h : CallersOk m a fs) (hf : FrameOk m a f)
    (hglobals : c.globals.length = m.globals.size) : ConfigOk m a { c with frames := f :: fs } where
  frames := forall_mem_cons.mpr ⟨hf, h.frames⟩
  callers := h.callers.imp (fun hnil => by simp [hnil]) id
  depth := Nat.succ_le_succ h.depth
  globals := hglobals

lemma ConfigOk.callersOk (h : ConfigOk m a c) (hframes : c.frames = f :: fs) :
    CallersOk m a fs := by
  obtain ⟨h, hcallers, hdepth, _⟩ := h
  rw [hframes] at h hcallers hdepth
  refine ⟨fun g hg => h g (mem_cons_of_mem f hg), hcallers.imp (fun hlen => ?_) id, Nat.le_of_succ_le_succ hdepth⟩
  exact eq_nil_of_length_eq_zero (Nat.le_zero.mp (Nat.le_of_succ_le_succ hlen))

lemma deliver_ok (h : CallersOk m a fs) (hglobals : c.globals.length = m.globals.size) (results : List Value) :
    StateOk m a (c.deliver results fs) := by
  obtain ⟨hframes, hcallers, hdepth⟩ := h
  cases fs with
  | nil => exact ⟨fun f hf => absurd hf not_mem_nil, .inl (Nat.zero_le _), Nat.zero_le _, hglobals⟩
  | cons f fs =>
    obtain ⟨hf, hfs⟩ := forall_mem_cons.mp hframes
    exact ⟨forall_mem_cons.mpr ⟨hf.withValues _, hfs⟩, .inr (hcallers.resolve_left (cons_ne_nil f fs)),
      Nat.le_succ_of_le hdepth, hglobals⟩

lemma enter_ok (h : Rewritten m m' a fix) (hm : m.Valid) {n : ℕ} (hk : m.callee n = some k)
    (args : List Value) (hfs : CallersOk m a fs) (hglobals : c.globals.length = m.globals.size) :
    StateOk m a (M.enter k args fs c) := by
  obtain ⟨type, i | d⟩ := k
  · simp only [enter]
    cases M.host i.moduleName i.exportName args c.world with
    | none => trivial
    | some q => exact deliver_ok (c := { c with world := q.2 }) hfs hglobals q.1
  · exact hfs.config (ofCall_ok h hm (callee_def_mem hk) type args) hglobals

lemma call_ok (h : Rewritten m m' a fix) (hm : m.Valid) {table : List (Option ℕ)}
    {g : Frame} (htarget : target ⟨m, table⟩ f op = some (k, g)) (hf : FrameOk m a f)
    (hfs : CallersOk m a fs) (hnesting : fs.length + 1 ≤ maximumCallDepth) (hne : a.globals ≠ [])
    (hglobals : c.globals.length = m.globals.size) : StateOk m a (M.call k g fs c) := by
  obtain ⟨⟨n, hk⟩, hvalues⟩ := target_eq_some htarget
  have hg : FrameOk m a g := by
    rw [hvalues]
    exact hf.withValues _
  simp only [call]
  cases takeArgs k.type.parameters.length g.values with
  | none => trivial
  | some q =>
    exact enter_ok M h hm hk q.1 ⟨forall_mem_cons.mpr ⟨hg.withValues _, hfs.frames⟩, .inr hne, hnesting⟩ hglobals

lemma Additions.Covers.of_call (h : a.Covers op) (hk : op.kind = .call) :
    a.Has Injected.callDepthAssert.name ∧ a.globals ≠ [] := by
  cases op with
  | call f => exact h
  | callIndirect t => exact h
  | _ => cases hk

lemma execute_ok (h : Rewritten m m' a fix) (hm : m.Valid) (table : List (Option ℕ))
    (hop : OpOk m a op) (hf : FrameOk m a f) (hfs : CallersOk m a fs)
    (hnesting : op.kind = .call → fs.length + 1 ≤ maximumCallDepth)
    (hglobals : c.globals.length = m.globals.size) : StateOk m a (M.execute ⟨m, table⟩ op f fs c) := by
  simp only [execute]
  cases hk : op.kind with
  | call =>
    cases htarget : target ⟨m, table⟩ f op with
    | none => trivial
    | some q => exact call_ok M h hm htarget hf hfs (hnesting hk) (hop.2.of_call hk).2 hglobals
  | control =>
    cases hg : f.control op with
    | next g => exact hfs.config (hf.control hop hg) hglobals
    | exit results => exact deliver_ok hfs hglobals results
    | trap => trivial
  | data =>
    cases hd : M.effect m.pageLimit op ⟨f.values, f.locals, c.globals, c.world⟩ with
    | none => trivial
    | some d =>
      have hlength : d.globals.length = m.globals.size := (effect_globals_length M hd).trans hglobals
      exact hfs.config (c := { c with globals := d.globals, world := d.world }) ⟨hf.code, hf.labels⟩ hlength

lemma step_ok (h : Rewritten m m' a fix) (hm : m.Valid) (table : List (Option ℕ)) {s t : State W}
    (hs : StateOk m a s) (hnesting : s.nesting ≤ maximumCallDepth)
    (hstep : M.step ⟨m, table⟩ s = some t) : StateOk m a t := by
  rcases s with ⟨⟨_ | ⟨f, fs⟩, p, r, gs, w⟩⟩ | _
  · cases p with
    | nil => cases hstep
    | cons p ps =>
      simp only [step] at hstep
      cases hk : m.callee p.function with
      | none =>
        rw [hk] at hstep
        cases hstep
        trivial
      | some k =>
        rw [hk] at hstep
        cases hstep
        exact enter_ok M h hm hk p.arguments ⟨hs.frames, .inl rfl, Nat.zero_le _⟩ hs.globals
  · obtain ⟨_ | ⟨op, code⟩, vs, ls, lo, ar, bt⟩ := f
    · cases hstep
      trivial
    · cases hstep
      have hf : FrameOk m a ⟨op :: code, vs, ls, lo, ar, bt⟩ := hs.frames _ mem_cons_self
      obtain ⟨hop, hcode⟩ := forall_mem_cons.mp hf.code
      refine execute_ok M h hm table hop (hf.withCode hcode) (hs.callersOk rfl) (fun hk => ?_) hs.globals
      simpa [State.nesting, hk] using hnesting
  · cases hstep

end

end XosChain.Wasm
