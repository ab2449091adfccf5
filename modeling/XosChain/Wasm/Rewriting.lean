import XosChain.Wasm.Expansion
import XosChain.Wasm.Semantics

namespace XosChain.Wasm

open List Machine Function Instr

section

variable (m : Module) (a : Additions) (fix : ℕ → ℕ)

def rewriteCode (code : List Instr) : List Instr := code.flatMap (m.rewriteOp a fix)

def rewriteLabel (l : Label) : Label := { l with target := rewriteCode m a fix l.target }

def rewriteFrame (f : Frame) : Frame :=
  { f with code := rewriteCode m a fix f.code, labels := f.labels.map (rewriteLabel m a fix) }

def suspendFrame (f : Frame) : Frame :=
  { rewriteFrame m a fix f with code := depthLeave m.globals.size ++ rewriteCode m a fix f.code }

def rewriteFrames : List Frame → List Frame
  | [] => []
  | f :: fs => rewriteFrame m a fix f :: fs.map (suspendFrame m a fix)

def rewriteCallee (k : Callee) : Callee := { k with body := k.body.map id (m.rewriteDef a fix) }

def Transfer.map (g : Frame → Frame) : Transfer → Transfer
  | .next f => .next (g f)
  | .exit results => .exit results
  | .trap => .trap

end

section

variable (m : Module) (a : Additions) (fix : ℕ → ℕ) (f : Frame)

lemma rewriteCode_cons (op : Instr) (code : List Instr) :
    rewriteCode m a fix (op :: code) = m.rewriteOp a fix op ++ rewriteCode m a fix code := rfl

lemma skipToEnd_rewriteCode (depth : ℕ) (code : List Instr) :
    skipToEnd depth (rewriteCode m a fix code) = rewriteCode m a fix (skipToEnd depth code) := by
  induction code generalizing depth with
  | nil => rfl
  | cons op code ih =>
    rw [rewriteCode_cons]
    cases op with
    | end_ => cases depth <;> simp [Module.rewriteOp, skipToEnd, opens, ih]
    | float op => cases hc : op.isConvert <;> simp [Module.rewriteOp, hc, skipToEnd, opens, ih]
    | _ => simp [Module.rewriteOp, depthEnter, depthLeave, skipToEnd, opens, ih]

lemma skipToElse_rewriteCode (depth : ℕ) (code : List Instr) :
    skipToElse depth (rewriteCode m a fix code) = (skipToElse depth code).map id (rewriteCode m a fix) := by
  induction code generalizing depth with
  | nil => rfl
  | cons op code ih =>
    rw [rewriteCode_cons]
    cases op with
    | end_ => cases depth <;> simp [Module.rewriteOp, skipToElse, opens, ih]
    | else_ => cases depth <;> simp [Module.rewriteOp, skipToElse, opens, ih]
    | float op => cases hc : op.isConvert <;> simp [Module.rewriteOp, hc, skipToElse, opens, ih]
    | _ => simp [Module.rewriteOp, depthEnter, depthLeave, skipToElse, opens, ih]

lemma branch_rewriteFrame (depth : ℕ) :
    (rewriteFrame m a fix f).branch depth = (f.branch depth).map (rewriteFrame m a fix) := by
  simp only [Frame.branch, rewriteFrame, getElem?_map, length_map]
  cases f.labels[depth]? with
  | some l => simp [Transfer.map, rewriteFrame, rewriteLabel]
  | none => by_cases hd : depth = f.labels.length <;> simp [hd, Transfer.map, Frame.leave]

lemma enterIf_rewriteFrame (result : UInt8) (condition : UInt32) :
    (rewriteFrame m a fix f).enterIf result condition = rewriteFrame m a fix (f.enterIf result condition) := by
  simp only [Frame.enterIf, Frame.enterBlock, rewriteFrame, skipToEnd_rewriteCode, skipToElse_rewriteCode]
  rcases skipToElse 0 f.code with ⟨_ | _, code⟩ <;> split_ifs <;> simp [rewriteLabel]

lemma control_rewriteFrame {op : Instr} (hop : ∀ t, op ≠ .loop t) :
    (rewriteFrame m a fix f).control op = (f.control op).map (rewriteFrame m a fix) := by
  have hvalues : (rewriteFrame m a fix f).values = f.values := rfl
  cases op with
  | block t => simp [Frame.control.eq_def, Transfer.map, Frame.enterBlock, rewriteFrame, rewriteLabel, skipToEnd_rewriteCode]
  | loop t => exact absurd rfl (hop t)
  | if_ t =>
    simp only [Frame.control.eq_def, hvalues]
    rcases f.values with _ | ⟨v, vs⟩
    · rfl
    · cases v with
      | i32 v => exact congrArg Transfer.next (enterIf_rewriteFrame m a fix { f with values := vs } t v)
      | _ => rfl
  | else_ => cases hl : f.labels <;> simp [Frame.control.eq_def, Transfer.map, rewriteFrame, rewriteLabel, hl]
  | end_ => cases hl : f.labels <;> simp [Frame.control.eq_def, Transfer.map, rewriteFrame, Frame.leave, hl]
  | br d => exact branch_rewriteFrame m a fix f d
  | brIf d =>
    simp only [Frame.control.eq_def, hvalues]
    rcases f.values with _ | ⟨v, vs⟩
    · rfl
    · cases v with
      | i32 v =>
        dsimp only
        by_cases hv : v ≠ 0
        · rw [if_pos hv, if_pos hv]
          exact branch_rewriteFrame m a fix { f with values := vs } d
        · rw [if_neg hv, if_neg hv]
          rfl
      | _ => rfl
  | brTable d k =>
    have htables : (rewriteFrame m a fix f).branchTables = f.branchTables := rfl
    simp only [Frame.control.eq_def, hvalues, htables]
    rcases f.values with _ | ⟨v, vs⟩
    · rfl
    · cases v with
      | i32 v =>
        cases f.branchTables[k]? with
        | none => rfl
        | some targets => exact branch_rewriteFrame m a fix { f with values := vs } _
      | _ => rfl
  | _ => rfl

end

section

variable {W : Type} (M : Machine W) {m : Module} {op : Instr} {d d' : Data W}

def Data.extend (d : Data W) (extra : List Value) : Data W := { d with globals := d.globals ++ extra }

lemma apply_extend (n : ℕ) (f : List Value → Option Value) (d : Data W) (extra : List Value) :
    apply n f (d.extend extra) = (apply n f d).map (·.extend extra) := by
  simp only [apply, Data.extend]
  cases takeArgs n d.values with
  | none => rfl
  | some p => cases hf : f p.1 <;> simp [hf]

lemma effect_extend (pageLimit : ℕ) (hop : m.validOp op = true) (hd : d.globals.length = m.globals.size)
    (extra : List Value) :
    M.effect pageLimit op (d.extend extra) = (M.effect pageLimit op d).map (·.extend extra) := by
  obtain ⟨values, locals, globals, world⟩ := d
  cases op with
  | getGlobal i =>
    have hi : i < globals.length := by simpa [Module.validOp, hd] using hop
    simp [effect.eq_def, Data.extend, getElem?_append_left hi, comp_def]
  | setGlobal i =>
    have hi : i < globals.length := by simpa [Module.validOp, hd] using hop
    cases values with
    | nil => rfl
    | cons v vs => simp [effect.eq_def, Data.extend, hi, Nat.lt_add_right _ hi, set_append_left _ _ hi]
  | int op => exact apply_extend _ _ _ _
  | float op => exact apply_extend _ _ _ _
  | drop => cases values <;> rfl
  | select => rcases values with _ | ⟨_ | _ | _ | _, _ | ⟨b, _ | ⟨c, vs⟩⟩⟩ <;> rfl
  | getLocal i => simp [effect.eq_def, Data.extend, comp_def]
  | setLocal i =>
    cases values with
    | nil => rfl
    | cons v vs => by_cases hi : i < locals.length <;> simp [effect.eq_def, Data.extend, hi]
  | teeLocal i =>
    cases values with
    | nil => rfl
    | cons v vs => by_cases hi : i < locals.length <;> simp [effect.eq_def, Data.extend, hi]
  | growMemory =>
    rcases values with _ | ⟨v | _ | _ | _, vs⟩
    · rfl
    · by_cases hv : M.pages world + v.toNat ≤ pageLimit <;> simp [effect.eq_def, Data.extend, hv]
    all_goals rfl
  | load op field =>
    rcases values with _ | ⟨v | _ | _ | _, vs⟩
    · rfl
    · simp [effect.eq_def, Data.extend, comp_def]
    all_goals rfl
  | store op field =>
    rcases values with _ | ⟨v, _ | ⟨i | _ | _ | _, vs⟩⟩
    · rfl
    · rfl
    · simp [effect.eq_def, Data.extend, comp_def]
    all_goals rfl
  | _ => rfl

lemma apply_globals {n : ℕ} {f : List Value → Option Value} (h : apply n f d = some d') :
    d'.globals = d.globals := by
  obtain ⟨p, _, h⟩ := Option.bind_eq_some_iff.mp h
  obtain ⟨v, _, h⟩ := Option.bind_eq_some_iff.mp h
  cases h
  rfl

lemma effect_globals_length {pageLimit : ℕ} (h : M.effect pageLimit op d = some d') :
    d'.globals.length = d.globals.length := by
  obtain ⟨values, locals, globals, world⟩ := d
  cases op with
  | nop | i32Const _ | i64Const _ | f32Const _ | f64Const _ | currentMemory =>
    cases h
    rfl
  | int op | float op => exact congrArg List.length (apply_globals h)
  | getLocal i | getGlobal i =>
    obtain ⟨v, _, rfl⟩ := Option.map_eq_some_iff.mp h
    rfl
  | drop =>
    cases values <;> cases h
    rfl
  | select =>
    rcases values with _ | ⟨_ | _ | _ | _, _ | ⟨b, _ | ⟨c, vs⟩⟩⟩ <;> cases h
    rfl
  | setLocal i | teeLocal i | setGlobal i =>
    cases values with
    | nil => cases h
    | cons v vs =>
      simp only [effect.eq_def, Option.ite_none_right_eq_some, Option.some.injEq] at h
      obtain ⟨_, rfl⟩ := h
      simp
  | growMemory =>
    rcases values with _ | ⟨v | _ | _ | _, vs⟩
    case cons.i32 =>
      simp only [effect.eq_def] at h
      split_ifs at h <;> cases h <;> rfl
    all_goals cases h
  | load op field =>
    rcases values with _ | ⟨v | _ | _ | _, vs⟩
    case cons.i32 =>
      obtain ⟨v, _, rfl⟩ := Option.map_eq_some_iff.mp h
      rfl
    all_goals cases h
  | store op field =>
    rcases values with _ | ⟨v, _ | ⟨i | _ | _ | _, vs⟩⟩
    case cons.cons.i32 =>
      obtain ⟨v, _, rfl⟩ := Option.map_eq_some_iff.mp h
      rfl
    all_goals cases h
  | _ => cases h

end

section

variable {m m' : Module} {a : Additions} {fix : ℕ → ℕ}

lemma Rewritten.types_left (h : Rewritten m m' a fix) {t : ℕ} (ht : t < m.types.length) :
    m'.types[t]? = m.types[t]? := by
  rw [h.module]
  exact getElem?_append_left ht

lemma Rewritten.callee (h : Rewritten m m' a fix) (hm : m.Valid) (f : ℕ) :
    m'.callee (f + a.imports.length) = (m.callee f).map (rewriteCallee m a fix) := by
  have himports : m'.functions.imports = a.imports ++ m.functions.imports := by rw [h.module]; rfl
  have hdefs : m'.functions.defs = m.functions.defs.map (m.rewriteDef a fix) := by rw [h.module]; rfl
  by_cases hf : f < m.functions.imports.length
  · have hf' : f + a.imports.length < m'.functions.imports.length := by
      rw [himports, length_append]
      omega
    have hget : m'.functions.imports[f + a.imports.length]? = m.functions.imports[f]? := by
      rw [himports, getElem?_append_right (Nat.le_add_left _ _), Nat.add_sub_cancel]
    have hi := hm.importTypes _ (getElem_mem hf)
    rw [Module.callee, if_pos hf', hget, Module.callee, if_pos hf, getElem?_eq_getElem hf]
    simp only [Option.bind_some, h.types_left hi, Option.map_map]
    rfl
  · have hf' : ¬ f + a.imports.length < m'.functions.imports.length := by
      rw [himports, length_append]
      omega
    have hsub : f + a.imports.length - m'.functions.imports.length = f - m.functions.imports.length := by
      rw [himports, length_append]
      omega
    rw [Module.callee, if_neg hf', hsub, hdefs, getElem?_map, Module.callee, if_neg hf]
    cases hd : m.functions.defs[f - m.functions.imports.length]? with
    | none => rfl
    | some d =>
      have ht := h.types_left (hm.defTypes d (mem_of_getElem? hd))
      simp only [Option.map_some, Option.bind_some, Module.rewriteDef, ht, Option.map_map]
      rfl

lemma Rewritten.callee_injected (h : Rewritten m m' a fix) {j : Injected} (hj : a.Has j.name) :
    ∃ t, m'.callee (a.indexOf j.name) = some ⟨j.type, .inl ⟨t, injectedModuleName, j.name⟩⟩ := by
  obtain ⟨t, himport, htype⟩ := h.importAt hj
  have hlt : a.indexOf j.name < m'.functions.imports.length := (List.getElem?_eq_some_iff.mp himport).1
  exact ⟨t, by rw [Module.callee, if_pos hlt, himport, Option.bind_some, htype, Option.map_some]⟩

lemma Rewritten.exportNamed (h : Rewritten m m' a fix) (name : String) :
    m'.exportNamed name = (m.exportNamed name).map (· + a.imports.length) := by
  have hexports : m'.exports = m.exports.map (Export.shift a.imports.length) := by rw [h.module]; rfl
  have hkey : ∀ e : Export, (decide ((e.shift a.imports.length).kind = .function ∧
      (e.shift a.imports.length).name = name)) = decide (e.kind = .function ∧ e.name = name) := by
    intro e
    by_cases he : e.kind = .function <;> simp [Export.shift, he]
  rw [Module.exportNamed, Module.exportNamed, hexports, find?_map, Option.map_map, Option.map_map]
  simp only [comp_def, hkey]
  cases hfind : m.exports.find? (fun e => e.kind = .function ∧ e.name = name) with
  | none => rfl
  | some e =>
    have he := find?_some hfind
    simp only [decide_eq_true_eq] at he
    simp [Export.shift, he.1]

end

section

def shiftTable (n : ℕ) (table : List (Option ℕ)) : List (Option ℕ) := table.map (Option.map (· + n))

lemma writeSegment_shift (n : ℕ) (imported : List Value) (table : List (Option ℕ)) (s : TableSegment) :
    writeSegment imported (shiftTable n table) (s.shift n) = (writeSegment imported table s).map (shiftTable n) := by
  simp only [writeSegment, TableSegment.shift, shiftTable, length_map]
  split
  · split_ifs <;> simp [shiftTable, map_take, map_drop, comp_def]
  · rfl

lemma foldlM_writeSegment_shift (n : ℕ) (imported : List Value) (segments : List TableSegment)
    (table : List (Option ℕ)) :
    (segments.map (TableSegment.shift n)).foldlM (writeSegment imported) (shiftTable n table) =
      (segments.foldlM (writeSegment imported) table).map (shiftTable n) := by
  induction segments generalizing table with
  | nil => rfl
  | cons s segments ih =>
    simp only [map_cons, foldlM_cons, writeSegment_shift]
    cases writeSegment imported table s with
    | none => rfl
    | some table' => exact ih table'

end

end XosChain.Wasm
