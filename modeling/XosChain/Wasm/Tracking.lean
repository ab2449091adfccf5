import XosChain.Wasm.Softfloat

namespace XosChain.Wasm

open Lib FlatMap List TableSegment

structure Additions where
  imports : List (Import ℕ)
  types : List FunctionType
  globals : List GlobalDef

namespace Additions

instance : Preorder Additions where
  le a b := a.imports <+: b.imports ∧ a.types <+: b.types ∧ a.globals <+: b.globals
  le_refl a := ⟨prefix_rfl, prefix_rfl, prefix_rfl⟩
  le_trans _ _ _ h h' := ⟨h.1.trans h'.1, h.2.1.trans h'.2.1, h.2.2.trans h'.2.2⟩

variable {a b : Additions} {j : Injected} {name : String}

def indexOf (a : Additions) (name : String) : ℕ := a.imports.findIdx (fun i => i.exportName = name)

def Has (a : Additions) (name : String) : Prop := a.indexOf name < a.imports.length

instance : Decidable (a.Has name) := inferInstanceAs (Decidable (_ < _))

lemma has_iff : a.Has name ↔ ∃ i ∈ a.imports, i.exportName = name := by
  simp [Has, indexOf, findIdx_lt_length]

lemma getElem?_indexOf (h : a.Has name) : ∃ i, a.imports[a.indexOf name]? = some i ∧ i.exportName = name := by
  refine ⟨a.imports.get ⟨a.indexOf name, h⟩, getElem?_eq_getElem h, ?_⟩
  exact of_decide_eq_true (findIdx_getElem (w := h))

lemma indexOf_mono (h : a ≤ b) (hn : a.Has name) : b.indexOf name = a.indexOf name := by
  obtain ⟨l, hl⟩ := h.1
  rw [indexOf, ← hl, findIdx_append]
  exact if_pos hn

lemma Has.mono (hn : a.Has name) (h : a ≤ b) : b.Has name := by
  rw [Has, indexOf_mono h hn]
  exact lt_of_lt_of_le hn h.1.length_le

def addImport (a : Additions) (i : Import ℕ) : Additions := { a with imports := a.imports ++ [i] }

def addType (a : Additions) (t : FunctionType) : Additions := { a with types := a.types ++ [t] }

def addGlobal (a : Additions) (d : GlobalDef) : Additions := { a with globals := a.globals ++ [d] }

lemma le_addImport (a : Additions) (i : Import ℕ) : a ≤ a.addImport i :=
  ⟨prefix_append _ _, prefix_rfl, prefix_rfl⟩

lemma le_addType (a : Additions) (t : FunctionType) : a ≤ a.addType t :=
  ⟨prefix_rfl, prefix_append _ _, prefix_rfl⟩

lemma le_addGlobal (a : Additions) (d : GlobalDef) : a ≤ a.addGlobal d :=
  ⟨prefix_rfl, prefix_rfl, prefix_append _ _⟩

lemma indexOf_addImport_self {i : Import ℕ} (h : ¬ a.Has i.exportName) :
    (a.addImport i).indexOf i.exportName = a.imports.length := by
  rw [indexOf, addImport, findIdx_append]
  exact (if_neg h).trans (by simp)

lemma has_addImport {i : Import ℕ} : (a.addImport i).Has name ↔ a.Has name ∨ i.exportName = name := by
  simp only [has_iff, addImport, mem_append, mem_singleton]
  constructor
  · rintro ⟨k, hk | rfl, hn⟩
    · exact .inl ⟨k, hk, hn⟩
    · exact .inr hn
  · rintro (⟨k, hk, hn⟩ | hn)
    · exact ⟨k, .inl hk, hn⟩
    · exact ⟨i, .inr rfl, hn⟩

end Additions

def Module.extend (m : Module) (a : Additions) : Module :=
  { m with
    types := m.types ++ a.types
    functions := { m.functions with imports := a.imports ++ m.functions.imports }
    globals := { m.globals with defs := m.globals.defs ++ a.globals }
    exports := m.exports.map (Export.shift a.imports.length)
    startFunctionIndex := m.startFunctionIndex.map (· + a.imports.length)
    tableSegments := m.tableSegments.map (shift a.imports.length) }

lemma Export.shift_shift (n k : ℕ) (e : Export) : (e.shift n).shift k = e.shift (n + k) := by
  by_cases h : e.kind = .function <;> simp [Export.shift, h, Nat.add_assoc]

lemma TableSegment.shift_shift (n k : ℕ) (t : TableSegment) : (t.shift n).shift k = t.shift (n + k) := by
  simp [shift]

lemma getElem?_of_prefix {α : Type} {l l' : List α} (h : l <+: l') {i : ℕ} {x : α} (hi : l[i]? = some x) :
    l'[i]? = some x := by
  obtain ⟨r, rfl⟩ := h
  rw [List.getElem?_append_left (List.getElem?_eq_some_iff.mp hi).1, hi]

lemma insertIdx_append_length {α : Type} (l l' : List α) (x : α) :
    (l ++ l').insertIdx l.length x = l ++ x :: l' := by
  induction l with
  | nil => rfl
  | cons y l ih => simp [ih]

namespace Module

variable (m : Module) (a : Additions)

lemma extend_insertImport (i : Import ℕ) :
    (m.extend a).insertImport a.imports.length i = m.extend (a.addImport i) := by
  simp [extend, insertImport, Additions.addImport, insertIdx_append_length, Function.comp_def, Export.shift_shift,
    shift_shift, Nat.add_assoc]

lemma extend_addGlobal (d : GlobalDef) : (m.extend a).addGlobal d = m.extend (a.addGlobal d) := by
  simp [extend, addGlobal, Additions.addGlobal]

lemma extend_addType (t : FunctionType) :
    { m.extend a with types := (m.extend a).types ++ [t] } = m.extend (a.addType t) := by
  simp [extend, Additions.addType]

end Module

structure Tracks (m : Module) (a : Additions) (s : Injector) : Prop where
  module : s.module = m.extend a
  next : s.nextInjectedIndex = a.imports.length
  size : s.registeredInjected.size = a.imports.length
  registered : ∀ name, s.registeredInjected.find? name =
    if a.Has name then some (m.functions.size + 2 * a.indexOf name) else none
  mapped : ∀ k < a.imports.length, s.injectedIndexMapping.find? (m.functions.size + 2 * k) = some k
  unmapped : ∀ f, f < m.functions.size ∨ m.functions.size + 2 * a.imports.length ≤ f →
    s.injectedIndexMapping.find? f = none
  slots : ∀ key i, s.typeSlots.find? key = some i → ∃ t, (m.types ++ a.types)[i]? = some t ∧ t.slot = key
  typed : ∀ i ∈ a.imports, ∃ j : Injected, i.moduleName = injectedModuleName ∧ i.exportName = j.name ∧
    (m.types ++ a.types)[i.type]? = some j.type
  depth : s.globalIdx = none ∧ a.globals = [] ∨ s.globalIdx = some m.globals.size ∧ a.globals = [callDepthGlobal]

section

variable {κ ν : Type} [LinearOrder κ] {slots : FlatMap κ ν} {k : κ}

lemma emplace_eq_set (h : slots.find? k = none) (v : ν) : emplace slots k v = slots.set k v := by
  rw [emplace, if_neg]
  simp [FlatMap.contains, h]

lemma size_emplace (h : slots.find? k = none) (v : ν) : (emplace slots k v).size = slots.size + 1 := by
  rw [emplace_eq_set h, size_set, erase_of_none h]

end

namespace Tracks

variable {m : Module} {a : Additions} {s : Injector}

lemma not_registered (h : Tracks m a s) {name : String} (hn : ¬ a.Has name) :
    s.registeredInjected.find? name = none := by
  rw [h.registered, if_neg hn]

lemma addTypeSlot (h : Tracks m a s) (t : FunctionType) : ∃ b, a ≤ b ∧ b.imports = a.imports ∧
    Tracks m b (s.addTypeSlot t) ∧ ∃ i, (s.addTypeSlot t).typeSlots.find? t.slot = some i ∧
      (m.types ++ b.types)[i]? = some t := by
  by_cases hc : s.typeSlots.contains t.slot
  · rw [Injector.addTypeSlot, if_pos hc]
    obtain ⟨i, hi⟩ := (contains_iff _ _).mp hc
    obtain ⟨t', ht', hs⟩ := h.slots _ _ hi
    exact ⟨a, le_rfl, rfl, h, i, hi, FunctionType.slot_injective hs ▸ ht'⟩
  · have hnone : s.typeSlots.find? t.slot = none := by
      rw [FlatMap.contains, Bool.not_eq_true, Option.isSome_eq_false_iff, Option.isNone_iff_eq_none] at hc
      exact hc
    have hprefix : m.types ++ a.types <+: m.types ++ (a.addType t).types := by
      simp [Additions.addType, ← append_assoc]
    have hself : (m.types ++ (a.addType t).types)[s.module.types.length]? = some t := by
      simp [h.module, Module.extend, Additions.addType, ← append_assoc]
    rw [Injector.addTypeSlot, if_neg hc, emplace_eq_set hnone]
    refine ⟨a.addType t, a.le_addType t, rfl, ?_, s.module.types.length, find?_set_self _ _ _, hself⟩
    refine ⟨?_, h.next, h.size, h.registered, h.mapped, h.unmapped, ?_, ?_, h.depth⟩
    · rw [← Module.extend_addType, ← h.module]
    · refine forall_set (fun key i hi => ?_) ⟨t, hself, rfl⟩
      obtain ⟨t', ht', hs⟩ := h.slots key i hi
      exact ⟨t', getElem?_of_prefix hprefix ht', hs⟩
    · intro i hi
      obtain ⟨j, hm, hn, ht⟩ := h.typed i hi
      exact ⟨j, hm, hn, getElem?_of_prefix hprefix ht⟩

lemma register (h : Tracks m a s) {j : Injected} (hj : ¬ a.Has j.name) {t : ℕ}
    (ht : (m.types ++ a.types)[t]? = some j.type) :
    Tracks m (a.addImport ⟨t, injectedModuleName, j.name⟩) (s.register j.name t).2 ∧
      (s.register j.name t).1 = m.functions.size + 2 * a.imports.length := by
  have hindex : s.module.functions.size + s.registeredInjected.size = m.functions.size + 2 * a.imports.length := by
    simp only [h.module, h.size, Module.extend, IndexSpace.size, length_append]
    omega
  have hfree := h.unmapped (m.functions.size + 2 * a.imports.length) (.inr le_rfl)
  have hlength : (a.addImport ⟨t, injectedModuleName, j.name⟩).imports.length = a.imports.length + 1 := by
    simp [Additions.addImport]
  have hsize : (emplace s.registeredInjected j.name (m.functions.size + 2 * a.imports.length)).size =
      a.imports.length + 1 := by
    rw [size_emplace (h.not_registered hj), h.size]
  simp only [Injector.register, hindex, h.next, emplace_eq_set hfree]
  refine ⟨⟨?_, hlength.symm, hsize.trans hlength.symm, ?_, ?_, ?_, h.slots, ?_, h.depth⟩, trivial⟩
  · simp only [hsize, Nat.add_sub_cancel, h.module, Module.extend_insertImport]
  · intro name
    simp only [emplace_eq_set (h.not_registered hj), find?_set, h.registered, Additions.has_addImport]
    by_cases hname : j.name = name
    · subst hname
      rw [if_pos rfl, if_pos (.inr rfl)]
      exact congrArg (fun k => some (m.functions.size + 2 * k)) (Additions.indexOf_addImport_self hj).symm
    · rw [if_neg hname]
      by_cases hn : a.Has name
      · rw [if_pos hn, if_pos (.inl hn), Additions.indexOf_mono (a.le_addImport _) hn]
      · rw [if_neg hn, if_neg (not_or.mpr ⟨hn, hname⟩)]
  · intro k hk
    rw [hlength] at hk
    rw [find?_set]
    split_ifs with heq
    · exact congrArg some (by omega)
    · exact h.mapped k (by omega)
  · intro f hf
    rw [hlength] at hf
    rw [find?_set_of_ne _ _ (by omega)]
    exact h.unmapped f (by omega)
  · intro i hi
    rcases mem_append.mp hi with hi | hi
    · exact h.typed i hi
    · rw [mem_singleton.mp hi]
      exact ⟨j, rfl, rfl, ht⟩

lemma registers_iff (h : Tracks m a s) (name : String) :
    s.module.functions.imports.length = 0 ∨ ¬ s.registeredInjected.contains name ↔ ¬ a.Has name := by
  simp only [FlatMap.contains, h.registered]
  by_cases hn : a.Has name
  · have hpos : a.imports ≠ [] := ne_nil_of_length_pos (Nat.zero_lt_of_lt hn)
    simp [h.module, Module.extend, hn, hpos]
  · simp [hn]

lemma addImport (h : Tracks m a s) (j : Injected) : ∃ b, a ≤ b ∧ Tracks m b (s.addImport j.type j.name).2 ∧
    b.Has j.name ∧ (s.addImport j.type j.name).1 = m.functions.size + 2 * b.indexOf j.name := by
  by_cases hj : a.Has j.name
  · rw [Injector.addImport, if_neg (fun hc => (h.registers_iff _).mp hc hj), h.registered, if_pos hj]
    exact ⟨a, le_rfl, h, hj, rfl⟩
  · obtain ⟨b, hab, himports, hb, i, hi, ht⟩ := h.addTypeSlot j.type
    have hjb : ¬ b.Has j.name := by rwa [Additions.Has, Additions.indexOf, himports]
    obtain ⟨htracks, hindex⟩ := hb.register hjb ht
    rw [Injector.addImport, if_pos ((h.registers_iff _).mpr hj), hi, Option.getD_some]
    refine ⟨_, hab.trans (b.le_addImport _), htracks, Additions.has_addImport.mpr (.inr rfl), ?_⟩
    rw [hindex, Additions.indexOf_addImport_self hjb]

end Tracks

end XosChain.Wasm
