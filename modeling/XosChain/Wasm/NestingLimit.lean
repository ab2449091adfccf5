import XosChain.Wasm.Semantics
import XosChain.Wasm.Validation

namespace XosChain.Wasm.Validation

open List Instr

section

def isIf : Instr → Bool
  | .if_ _ => true
  | _ => false

def wellNested : List Bool → List Instr → Bool
  | _, [] => false
  | constructs, op :: code =>
    if op.opens then wellNested (isIf op :: constructs) code
    else if op = .end_ then
      match constructs with
      | [] => code.isEmpty
      | _ :: constructs => wellNested constructs code
    else if op = .else_ then
      match constructs with
      | true :: constructs => wellNested (false :: constructs) code
      | _ => false
    else wellNested constructs code

def opened (n : ℕ) (op : Instr) : ℕ := if op.opens then n + 1 else if op = .end_ then n - 1 else n

def Deep (m : Module) : Prop := ∃ f ∈ m.functions.defs, ∃ p, p <+: f.code ∧ 1024 ≤ p.foldl opened 0

def carried (c : ℕ) (f : FunctionDef) : ℕ :=
  if c + f.code.count .else_ = 0 then 1 else c + f.code.count .else_ - 1

def Counted : ℕ → List FunctionDef → Prop
  | _, [] => False
  | c, f :: fs =>
    (∃ p, p <+: f.code ∧ 1024 ≤ c + p.foldl opened 0 + p.count .else_) ∨ Counted (carried c f) fs

def nestedDepthExceeded : Thrown := ⟨.wasmExecutionError, "Nested depth exceeded"⟩

end

section

variable {m : Module} {d e : ℕ} {op : Instr} {code : List Instr} {fs : List FunctionDef}

def counted (d : ℕ) (op : Instr) : ℕ :=
  if op.opens ∨ op = .else_ then d + 1 else if op = .end_ then (if d = 0 then 1 else d - 1) else d

lemma nested_eq (hop : op ≠ .end_) (n : ℕ) :
    nested false n op = if n + 1 < 1024 then .ok (n + 1) else .error nestedDepthExceeded := by
  simp only [nested, Bool.false_eq_true, hop, false_and, if_false, eosAssert]
  split_ifs <;> rfl

lemma opConstrainers_eq (h : opConstrainers true d op = .ok e) {n : ℕ} (hn : n < 1024) :
    e = d ∧ opConstrainers false n op =
      if counted n op < 1024 then .ok (counted n op) else .error nestedDepthExceeded := by
  have hraised : ∀ op : Instr, op.opens ∨ op = .else_ → op ≠ .end_ →
      nested false n op = if counted n op < 1024 then .ok (counted n op) else .error nestedDepthExceeded := by
    intro op hop hne
    rw [nested_eq hne, counted, if_pos hop]
  cases op with
  | error => cases h
  | block t | loop t | if_ t =>
    cases h
    exact ⟨rfl, hraised _ (.inl rfl) nofun⟩
  | else_ =>
    cases h
    exact ⟨rfl, hraised _ (.inr rfl) nofun⟩
  | end_ =>
    cases h
    refine ⟨rfl, ?_⟩
    change nested false n .end_ = _
    by_cases hzero : n = 0
    · subst hzero
      rfl
    · have hlt : n - 1 < 1024 := by omega
      simp [nested, counted, opens, hzero, Nat.pos_of_ne_zero hzero, hlt]
  | load o field | store o field =>
    obtain ⟨u, hu, h⟩ := bind_ok h
    cases h
    refine ⟨rfl, .trans ?_ (if_pos hn).symm⟩
    change (largeOffset field >>= fun _ => pure n) = .ok n
    rw [hu]
    rfl
  | _ =>
    cases h
    exact ⟨rfl, (if_pos hn).symm⟩

lemma foldlM_opConstrainers (h : code.foldlM (opConstrainers true) d = .ok e) {n : ℕ} (hn : n < 1024) :
    (code.foldlM (opConstrainers false) n = .error nestedDepthExceeded ∧
        ∃ p, p <+: code ∧ 1024 ≤ p.foldl counted n) ∨
      (code.foldlM (opConstrainers false) n = .ok (code.foldl counted n) ∧
        ∀ p, p <+: code → p.foldl counted n < 1024) := by
  induction code generalizing d n with
  | nil =>
    refine .inr ⟨rfl, fun p hp => ?_⟩
    rw [prefix_nil.mp hp]
    exact hn
  | cons op code ih =>
    rw [foldlM_cons] at h
    obtain ⟨t, ht, hrest⟩ := bind_ok h
    obtain ⟨rfl, hstep⟩ := opConstrainers_eq ht hn
    by_cases hlt : counted n op < 1024
    · rw [if_pos hlt] at hstep
      have hcode : (op :: code).foldlM (opConstrainers false) n =
          code.foldlM (opConstrainers false) (counted n op) := by
        rw [foldlM_cons, hstep]
        rfl
      rw [hcode]
      refine (ih hrest hlt).imp ?_ ?_
      · rintro ⟨hraise, p, hp, hle⟩
        exact ⟨hraise, op :: p, cons_prefix_cons.mpr ⟨rfl, hp⟩, hle⟩
      · rintro ⟨hok, hall⟩
        refine ⟨hok, fun p hp => ?_⟩
        cases p with
        | nil => exact hn
        | cons a p =>
          obtain ⟨rfl, htail⟩ := cons_prefix_cons.mp hp
          exact hall p htail
    · rw [if_neg hlt] at hstep
      refine .inl ⟨?_, [op], cons_prefix_cons.mpr ⟨rfl, nil_prefix⟩, not_lt.mp hlt⟩
      rw [foldlM_cons, hstep]
      rfl

lemma exists_concat_end {constructs : List Bool} (h : wellNested constructs code) :
    ∃ q, code = q ++ [.end_] ∧ q.foldl opened constructs.length = 0 ∧ ∀ p, p <+: q → ∀ c,
      p.foldl counted (c + constructs.length) = c + p.foldl opened constructs.length + p.count .else_ := by
  induction code generalizing constructs with
  | nil => cases h
  | cons op code ih =>
    -- A longer body is a body after one operator, with another number of constructs or another start.
    have hcons : ∀ (rest : List Bool) (k : ℕ), wellNested rest code → opened constructs.length op = rest.length →
        (∀ c, counted (c + constructs.length) op = c + k + rest.length) → k = [op].count .else_ →
        ∃ q, op :: code = q ++ [.end_] ∧ q.foldl opened constructs.length = 0 ∧ ∀ p, p <+: q → ∀ c,
          p.foldl counted (c + constructs.length) = c + p.foldl opened constructs.length + p.count .else_ := by
      intro rest k hrest hopened hcounted hk
      obtain ⟨q, rfl, hq, hall⟩ := ih hrest
      refine ⟨op :: q, rfl, ?_, fun p hp c => ?_⟩
      · rw [foldl_cons, hopened]
        exact hq
      · cases p with
        | nil => rfl
        | cons a p =>
          obtain ⟨rfl, htail⟩ := cons_prefix_cons.mp hp
          rw [foldl_cons, foldl_cons, hcounted, hopened, hall p htail, count_cons, hk, count_singleton]
          omega
    rw [wellNested.eq_def] at h
    dsimp only at h
    by_cases hop : op.opens
    · rw [if_pos hop] at h
      have hne : op ≠ .else_ := by rintro rfl; cases hop
      refine hcons _ 0 h (by simp [opened, hop]) (fun c => ?_) (by simp [hne])
      rw [counted, if_pos (.inl hop), length_cons]
      omega
    rw [if_neg hop] at h
    by_cases hend : op = .end_
    · subst hend
      rw [if_pos rfl] at h
      cases constructs with
      | nil =>
        rw [isEmpty_iff.mp h]
        refine ⟨[], rfl, rfl, fun p hp c => ?_⟩
        rw [prefix_nil.mp hp]
        rfl
      | cons b rest =>
        refine hcons rest 0 h rfl (fun c => ?_) rfl
        simp only [counted, opens, Bool.false_eq_true, reduceCtorEq, or_self, if_false, if_true]
        rfl
    rw [if_neg hend] at h
    by_cases helse : op = .else_
    · subst helse
      rw [if_pos rfl] at h
      split at h
      · next rest =>
        refine hcons _ 1 h rfl (fun c => ?_) rfl
        rw [counted, if_pos (.inr rfl), length_cons, length_cons]
        omega
      · cases h
    · rw [if_neg helse] at h
      refine hcons _ 0 h (by simp [opened, hop, hend]) (fun c => ?_) (by simp [helse])
      simp [counted, hop, hend, helse]

lemma body_counted {f : FunctionDef} (h : wellNested [] f.code) (c : ℕ) :
    f.code.foldl counted c = carried c f ∧ ((∃ p, p <+: f.code ∧ 1024 ≤ p.foldl counted c) ↔
      ∃ p, p <+: f.code ∧ 1024 ≤ c + p.foldl opened 0 + p.count .else_) := by
  obtain ⟨q, hcode, hq, hall⟩ := exists_concat_end h
  simp only [length_nil, Nat.add_zero] at hq hall
  have hqc := hall q prefix_rfl c
  have helse : f.code.count .else_ = q.count .else_ := by simp [hcode]
  have hlast : f.code.foldl counted c = carried c f := by
    rw [carried, helse, hcode, foldl_concat, hqc, hq]
    rfl
  have hend : f.code.foldl opened 0 = 0 := by
    rw [hcode, foldl_concat, hq]
    rfl
  refine ⟨hlast, ⟨?_, ?_⟩⟩ <;> rintro ⟨p, hp, hle⟩ <;> rw [hcode, prefix_concat_iff] at hp
  · rcases hp with rfl | hp
    · refine ⟨q, hcode ▸ prefix_append q _, ?_⟩
      rw [← hcode, hlast, carried, helse] at hle
      rw [hq]
      split_ifs at hle <;> omega
    · exact ⟨p, hcode ▸ hp.trans (prefix_append q _), hall p hp c ▸ hle⟩
  · rcases hp with rfl | hp
    · refine ⟨q, hcode ▸ prefix_append q _, ?_⟩
      rw [← hcode, hend, helse] at hle
      rw [hqc, hq]
      exact hle
    · exact ⟨p, hcode ▸ hp.trans (prefix_append q _), (hall p hp c).symm ▸ hle⟩

lemma foldlM_bodies (h : (fs.flatMap FunctionDef.code).foldlM (opConstrainers true) d = .ok e)
    (hwell : ∀ f ∈ fs, wellNested [] f.code) {c : ℕ} (hc : c < 1024) :
    (fs.flatMap FunctionDef.code).foldlM (opConstrainers false) c = .error nestedDepthExceeded ↔ Counted c fs := by
  induction fs generalizing c d with
  | nil => exact ⟨nofun, nofun⟩
  | cons f fs ih =>
    rw [flatMap_cons, foldlM_append] at h ⊢
    obtain ⟨t, ht, hrest⟩ := bind_ok h
    obtain ⟨hf, hfs⟩ := forall_mem_cons.mp hwell
    obtain ⟨hlast, hbody⟩ := body_counted hf c
    rcases foldlM_opConstrainers ht hc with ⟨hraise, hpoint⟩ | ⟨hok, hlt⟩
    · rw [hraise]
      exact iff_of_true rfl (.inl (hbody.mp hpoint))
    · rw [hok, hlast]
      have hcarried := hlt _ prefix_rfl
      rw [hlast] at hcarried
      refine (ih hrest hfs hcarried).trans (or_iff_right fun hpoint => ?_).symm
      obtain ⟨p, hp, hle⟩ := hbody.mpr hpoint
      exact absurd (hlt p hp) (not_lt.mpr hle)

lemma counted_of_deep {c : ℕ} (h : ∃ f ∈ fs, ∃ p, p <+: f.code ∧ 1024 ≤ p.foldl opened 0) : Counted c fs := by
  induction fs generalizing c with
  | nil => simp at h
  | cons f fs ih =>
    obtain ⟨g, hg, p, hp, hle⟩ := h
    rcases mem_cons.mp hg with rfl | hg
    · exact .inl ⟨p, hp, by omega⟩
    · exact .inr (ih ⟨g, hg, p, hp, hle⟩)

lemma validate_producing (h : validate m false = .ok ()) (hwell : ∀ f ∈ m.functions.defs, wellNested [] f.code) :
    validate m true = .error nestedDepthExceeded ↔ Counted 0 m.functions.defs := by
  obtain ⟨u1, h1, h⟩ := bind_ok h
  obtain ⟨u2, h2, h⟩ := bind_ok h
  obtain ⟨u3, h3, h⟩ := bind_ok h
  obtain ⟨u4, h4, h⟩ := bind_ok h
  obtain ⟨u5, h5, h⟩ := bind_ok h
  obtain ⟨u6, h6, h⟩ := bind_ok h
  obtain ⟨d, hd, -⟩ := bind_ok h
  rw [← foldlM_bodies hd hwell (by decide), validate, h1, h2, h3, h4, h5, h6]
  change (foldlM (opConstrainers false) 0 _ >>= fun _ => pure ()) = _ ↔ _
  refine result_bind_error.trans (or_iff_left ?_)
  rintro ⟨_, _, ⟨⟩⟩

theorem nested_exceeded_iff_deep (h : validate m false = .ok ())
    (hwell : ∀ f ∈ m.functions.defs, wellNested [] f.code) :
    (validate m true = .error nestedDepthExceeded ↔ Deep m) ↔ (Counted 0 m.functions.defs → Deep m) := by
  rw [validate_producing h hwell]
  exact ⟨Iff.mp, fun hdeep => ⟨hdeep, counted_of_deep⟩⟩

lemma foldl_opened_le (n : ℕ) : code.foldl opened n ≤ n + code.countP opens := by
  induction code generalizing n with
  | nil => exact le_rfl
  | cons op code ih =>
    rw [foldl_cons, countP_cons, opened]
    refine (ih _).trans ?_
    split_ifs <;> omega

def applying (code : List Instr) : Module where
  types := [applyType]
  functions := ⟨[], [⟨0, [], code ++ [.end_], []⟩]⟩
  tables := []
  memories := []
  globals := ⟨[], []⟩
  exports := [⟨"apply", .function, 0⟩]
  dataSegments := []
  tableSegments := []
  startFunctionIndex := none

def choices (n : ℕ) : Module := applying (replicate n [.i32Const 1, .if_ 64, .else_, .end_]).flatten

def blocks (n : ℕ) : Module := applying (replicate n (.block 64) ++ replicate n .end_)

theorem many_choices_exceed : validate (choices 1023) false = .ok () ∧
    (∀ f ∈ (choices 1023).functions.defs, wellNested [] f.code) ∧
    validate (choices 1023) true = .error nestedDepthExceeded ∧ ¬ Deep (choices 1023) := by
  refine ⟨by decide +kernel, by decide +kernel, by decide +kernel, ?_⟩
  rintro ⟨f, hf, p, hp, hle⟩
  have hcount : ∀ f ∈ (choices 1023).functions.defs, f.code.countP opens = 1023 := by decide +kernel
  have hopens : p.countP opens ≤ f.code.countP opens := hp.sublist.countP_le
  have hbound : p.foldl opened 0 ≤ 0 + p.countP opens := foldl_opened_le 0
  rw [hcount f hf] at hopens
  omega

lemma blocks_deep {n : ℕ} (h : 1024 ≤ n) : Deep (blocks n) := by
  have hopened : ∀ k m : ℕ, (replicate k (.block 64)).foldl opened m = m + k := by
    intro k
    induction k with
    | zero => exact fun m => rfl
    | succ k ih =>
      intro m
      rw [replicate_succ, foldl_cons, ih]
      exact (Nat.add_right_comm m 1 k).trans (Nat.add_assoc m k 1)
  refine ⟨_, mem_singleton_self _, replicate n (.block 64), ?_, by rwa [hopened, zero_add]⟩
  exact (prefix_append _ _).trans (prefix_append _ _)

theorem choice_passes_blocks_exceed :
    (validate (choices 1) true = .error nestedDepthExceeded ↔ Deep (choices 1)) ∧
      (validate (blocks 1024) true = .error nestedDepthExceeded ↔ Deep (blocks 1024)) ∧ Deep (blocks 1024) := by
  have hvalid : validate (choices 1) false = .ok () := by decide +kernel
  have hwell : ∀ f ∈ (choices 1).functions.defs, wellNested [] f.code := by decide +kernel
  have hdeep : Deep (blocks 1024) := blocks_deep le_rfl
  refine ⟨(nested_exceeded_iff_deep hvalid hwell).mpr fun hcounted => ?_,
    (nested_exceeded_iff_deep (by decide +kernel) (by decide +kernel)).mpr fun _ => hdeep, hdeep⟩
  exact absurd ((validate_producing hvalid hwell).mpr hcounted) (by decide +kernel)

end

end XosChain.Wasm.Validation
