import XosChain.Wasm.Expansion
import XosChain.Wasm.Validation

namespace XosChain.Wasm

open List Instr

namespace Module

variable (m : Module)

def NoNativeFloat : Prop := ∀ d ∈ m.functions.defs, ∀ op, float op ∉ d.code

def SoftfloatImport (op : FloatOp) (k : ℕ) : Prop :=
  ∃ t name, m.functions.imports[k]? = some ⟨t, injectedModuleName, name⟩ ∧ m.types[t]? = some op.type ∧
    softfloatApi.lookup name = some (op, op.type)

def Softened (m m' : Module) : Prop :=
  ∃ a fix, m'.functions.defs = m.functions.defs.map (m.rewriteDef a fix) ∧
    ∀ d ∈ m.functions.defs, ∀ op, float op ∈ d.code →
      ∃ k, m.rewriteOp a fix (.float op) = [.call k] ∧ m'.SoftfloatImport op k

end Module

section

variable {m m' : Module} {a : Additions} {fix : ℕ → ℕ} {i : Instr} {op : FloatOp}

lemma float_mem_rewriteOp (h : float op ∈ m.rewriteOp a fix i) : i = .float op ∧ op.isConvert = true := by
  cases i with
  | float op' =>
    cases hc : op'.isConvert with
    | true =>
      simp only [Module.rewriteOp, hc, if_true, mem_singleton] at h
      exact ⟨h.symm, by rw [float.inj h, hc]⟩
    | false => simp [Module.rewriteOp, hc] at h
  | _ => simp [Module.rewriteOp, depthEnter, depthLeave] at h

lemma float_mem_rewriteDef {d : FunctionDef} :
    float op ∈ (m.rewriteDef a fix d).code ↔ float op ∈ d.code ∧ op.isConvert = true := by
  simp only [Module.rewriteDef, mem_cons, reduceCtorEq, false_or, mem_flatMap]
  constructor
  · rintro ⟨i, hi, hop⟩
    obtain ⟨rfl, hc⟩ := float_mem_rewriteOp hop
    exact ⟨hi, hc⟩
  · rintro ⟨hd, hc⟩
    exact ⟨.float op, hd, by simp [Module.rewriteOp, hc]⟩

lemma Rewritten.softfloatImport (h : Rewritten m m' a fix) {d : FunctionDef} (hd : d ∈ m.functions.defs)
    (hop : float op ∈ d.code) (hc : op.isConvert = false) :
    m'.SoftfloatImport op (a.indexOf (injectWhichOp op)) := by
  obtain ⟨t, himport, htype⟩ := h.importAt (j := .softfloat op hc) (h.covers d hd _ hop hc)
  exact ⟨t, injectWhichOp op, himport, htype, softfloatApi_lookup hc⟩

end

theorem Module.no_native_float_iff (m : Module) :
    m.inject.NoNativeFloat ∧ m.Softened m.inject ↔
      ∀ d ∈ m.functions.defs, ∀ op : FloatOp, op.isConvert = true → float op ∉ d.code := by
  obtain ⟨a, fix, h⟩ := inject_rewritten m
  have hdefs : m.inject.functions.defs = m.functions.defs.map (m.rewriteDef a fix) := by rw [h.module]; rfl
  constructor
  · rintro ⟨hnative, _⟩ d hd op hc hop
    have hd' : m.rewriteDef a fix d ∈ m.inject.functions.defs := by
      rw [hdefs]
      exact mem_map_of_mem hd
    exact hnative _ hd' op (float_mem_rewriteDef.mpr ⟨hop, hc⟩)
  · intro hconvert
    refine ⟨?_, a, fix, hdefs, ?_⟩
    · intro d' hd' op hop
      rw [hdefs] at hd'
      obtain ⟨d, hd, rfl⟩ := mem_map.mp hd'
      obtain ⟨hop, hc⟩ := float_mem_rewriteDef.mp hop
      exact hconvert d hd op hc hop
    · intro d hd op hop
      have hc : op.isConvert = false := Bool.eq_false_iff.mpr (fun hc => hconvert d hd op hc hop)
      exact ⟨_, by simp [Module.rewriteOp, hc], h.softfloatImport hd hop hc⟩

def convertingModule : Module where
  types := [Validation.applyType]
  functions := ⟨[], [⟨0, [], [.i32Const 1, .float (.convert .f32 .signed .i32), .drop, .end_], []⟩]⟩
  tables := []
  memories := []
  globals := ⟨[], []⟩
  exports := [⟨"apply", .function, 0⟩]
  dataSegments := []
  tableSegments := []
  startFunctionIndex := none

theorem conversion_survives : Validation.validate convertingModule true = .ok () ∧
    ¬ convertingModule.inject.NoNativeFloat := by
  have hmem : ∃ d ∈ convertingModule.inject.functions.defs,
      float (.convert .f32 .signed .i32) ∈ d.code := by
    decide +kernel
  obtain ⟨d, hd, hop⟩ := hmem
  exact ⟨by decide +kernel, fun h => h d hd _ hop⟩

end XosChain.Wasm
