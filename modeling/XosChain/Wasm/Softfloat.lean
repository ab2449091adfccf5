import XosChain.Wasm.Injection

namespace XosChain.Wasm

def softfloatApi : List (String × FloatOp × FunctionType) :=
  [("_eosio_f32_add", .binop .f32 .add, ⟨.f32, [.f32, .f32]⟩),
    ("_eosio_f32_sub", .binop .f32 .sub, ⟨.f32, [.f32, .f32]⟩),
    ("_eosio_f32_mul", .binop .f32 .mul, ⟨.f32, [.f32, .f32]⟩),
    ("_eosio_f32_div", .binop .f32 .div, ⟨.f32, [.f32, .f32]⟩),
    ("_eosio_f32_min", .binop .f32 .min, ⟨.f32, [.f32, .f32]⟩),
    ("_eosio_f32_max", .binop .f32 .max, ⟨.f32, [.f32, .f32]⟩),
    ("_eosio_f32_copysign", .binop .f32 .copysign, ⟨.f32, [.f32, .f32]⟩),
    ("_eosio_f32_abs", .unop .f32 .abs, ⟨.f32, [.f32]⟩),
    ("_eosio_f32_neg", .unop .f32 .neg, ⟨.f32, [.f32]⟩),
    ("_eosio_f32_sqrt", .unop .f32 .sqrt, ⟨.f32, [.f32]⟩),
    ("_eosio_f32_ceil", .unop .f32 .ceil, ⟨.f32, [.f32]⟩),
    ("_eosio_f32_floor", .unop .f32 .floor, ⟨.f32, [.f32]⟩),
    ("_eosio_f32_trunc", .unop .f32 .trunc, ⟨.f32, [.f32]⟩),
    ("_eosio_f32_nearest", .unop .f32 .nearest, ⟨.f32, [.f32]⟩),
    ("_eosio_f32_eq", .relop .f32 .eq, ⟨.i32, [.f32, .f32]⟩),
    ("_eosio_f32_ne", .relop .f32 .ne, ⟨.i32, [.f32, .f32]⟩),
    ("_eosio_f32_lt", .relop .f32 .lt, ⟨.i32, [.f32, .f32]⟩),
    ("_eosio_f32_le", .relop .f32 .le, ⟨.i32, [.f32, .f32]⟩),
    ("_eosio_f32_gt", .relop .f32 .gt, ⟨.i32, [.f32, .f32]⟩),
    ("_eosio_f32_ge", .relop .f32 .ge, ⟨.i32, [.f32, .f32]⟩),
    ("_eosio_f64_add", .binop .f64 .add, ⟨.f64, [.f64, .f64]⟩),
    ("_eosio_f64_sub", .binop .f64 .sub, ⟨.f64, [.f64, .f64]⟩),
    ("_eosio_f64_mul", .binop .f64 .mul, ⟨.f64, [.f64, .f64]⟩),
    ("_eosio_f64_div", .binop .f64 .div, ⟨.f64, [.f64, .f64]⟩),
    ("_eosio_f64_min", .binop .f64 .min, ⟨.f64, [.f64, .f64]⟩),
    ("_eosio_f64_max", .binop .f64 .max, ⟨.f64, [.f64, .f64]⟩),
    ("_eosio_f64_copysign", .binop .f64 .copysign, ⟨.f64, [.f64, .f64]⟩),
    ("_eosio_f64_abs", .unop .f64 .abs, ⟨.f64, [.f64]⟩),
    ("_eosio_f64_neg", .unop .f64 .neg, ⟨.f64, [.f64]⟩),
    ("_eosio_f64_sqrt", .unop .f64 .sqrt, ⟨.f64, [.f64]⟩),
    ("_eosio_f64_ceil", .unop .f64 .ceil, ⟨.f64, [.f64]⟩),
    ("_eosio_f64_floor", .unop .f64 .floor, ⟨.f64, [.f64]⟩),
    ("_eosio_f64_trunc", .unop .f64 .trunc, ⟨.f64, [.f64]⟩),
    ("_eosio_f64_nearest", .unop .f64 .nearest, ⟨.f64, [.f64]⟩),
    ("_eosio_f64_eq", .relop .f64 .eq, ⟨.i32, [.f64, .f64]⟩),
    ("_eosio_f64_ne", .relop .f64 .ne, ⟨.i32, [.f64, .f64]⟩),
    ("_eosio_f64_lt", .relop .f64 .lt, ⟨.i32, [.f64, .f64]⟩),
    ("_eosio_f64_le", .relop .f64 .le, ⟨.i32, [.f64, .f64]⟩),
    ("_eosio_f64_gt", .relop .f64 .gt, ⟨.i32, [.f64, .f64]⟩),
    ("_eosio_f64_ge", .relop .f64 .ge, ⟨.i32, [.f64, .f64]⟩),
    ("_eosio_f32_promote", .f64PromoteF32, ⟨.f64, [.f32]⟩),
    ("_eosio_f64_demote", .f32DemoteF64, ⟨.f32, [.f64]⟩),
    ("_eosio_f32_trunc_i32s", .trunc .i32 .signed .f32, ⟨.i32, [.f32]⟩),
    ("_eosio_f64_trunc_i32s", .trunc .i32 .signed .f64, ⟨.i32, [.f64]⟩),
    ("_eosio_f32_trunc_i32u", .trunc .i32 .unsigned .f32, ⟨.i32, [.f32]⟩),
    ("_eosio_f64_trunc_i32u", .trunc .i32 .unsigned .f64, ⟨.i32, [.f64]⟩),
    ("_eosio_f32_trunc_i64s", .trunc .i64 .signed .f32, ⟨.i64, [.f32]⟩),
    ("_eosio_f64_trunc_i64s", .trunc .i64 .signed .f64, ⟨.i64, [.f64]⟩),
    ("_eosio_f32_trunc_i64u", .trunc .i64 .unsigned .f32, ⟨.i64, [.f32]⟩),
    ("_eosio_f64_trunc_i64u", .trunc .i64 .unsigned .f64, ⟨.i64, [.f64]⟩),
    ("_eosio_i32_to_f32", .convert .f32 .signed .i32, ⟨.f32, [.i32]⟩),
    ("_eosio_i64_to_f32", .convert .f32 .signed .i64, ⟨.f32, [.i64]⟩),
    ("_eosio_ui32_to_f32", .convert .f32 .unsigned .i32, ⟨.f32, [.i32]⟩),
    ("_eosio_ui64_to_f32", .convert .f32 .unsigned .i64, ⟨.f32, [.i64]⟩),
    ("_eosio_i32_to_f64", .convert .f64 .signed .i32, ⟨.f64, [.i32]⟩),
    ("_eosio_i64_to_f64", .convert .f64 .signed .i64, ⟨.f64, [.i64]⟩),
    ("_eosio_ui32_to_f64", .convert .f64 .unsigned .i32, ⟨.f64, [.i32]⟩),
    ("_eosio_ui64_to_f64", .convert .f64 .unsigned .i64, ⟨.f64, [.i64]⟩)]

def FloatOp.isConvert : FloatOp → Bool
  | .convert _ _ _ => true
  | _ => false

lemma softfloatApi_named : ∀ e ∈ softfloatApi, e.2.1.isConvert = false →
    softfloatApi.lookup (injectWhichOp e.2.1) = some e.2 := by
  decide +kernel

lemma softfloatApi_complete (op : FloatOp) : (op, op.type) ∈ softfloatApi.map Prod.snd := by
  cases op with
  | unop w op => cases w <;> cases op <;> decide
  | binop w op => cases w <;> cases op <;> decide
  | relop w op => cases w <;> cases op <;> decide
  | trunc i sign w => cases i <;> cases sign <;> cases w <;> decide
  | convert w sign i => cases w <;> cases sign <;> cases i <;> decide
  | f32DemoteF64 => decide
  | f64PromoteF32 => decide

variable {op : FloatOp}

lemma softfloatApi_lookup (h : op.isConvert = false) :
    softfloatApi.lookup (injectWhichOp op) = some (op, op.type) := by
  obtain ⟨e, he, heq⟩ := List.mem_map.mp (softfloatApi_complete op)
  have hop : e.2.1 = op := congrArg Prod.fst heq
  rw [← heq, ← hop]
  exact softfloatApi_named e he (hop ▸ h)

inductive Injected where
  | checktime
  | callDepthAssert
  | softfloat (op : FloatOp) (h : op.isConvert = false)

namespace Injected

def name : Injected → String
  | checktime => "checktime"
  | callDepthAssert => "call_depth_assert"
  | softfloat op _ => injectWhichOp op

def type : Injected → FunctionType
  | checktime | callDepthAssert => ⟨.none, []⟩
  | softfloat op _ => op.type

lemma lookup_checktime : softfloatApi.lookup checktime.name = none := by decide +kernel

lemma lookup_callDepthAssert : softfloatApi.lookup callDepthAssert.name = none := by decide +kernel

lemma name_injective : Function.Injective name := by
  intro j j' h
  have hl : softfloatApi.lookup j.name = softfloatApi.lookup j'.name := congrArg (softfloatApi.lookup ·) h
  cases j with
  | checktime =>
    cases j' with
    | checktime => rfl
    | callDepthAssert => exact absurd h (by decide)
    | softfloat op hop =>
      rw [lookup_checktime, name, softfloatApi_lookup hop] at hl
      cases hl
  | callDepthAssert =>
    cases j' with
    | checktime => exact absurd h (by decide)
    | callDepthAssert => rfl
    | softfloat op hop =>
      rw [lookup_callDepthAssert, name, softfloatApi_lookup hop] at hl
      cases hl
  | softfloat op hop =>
    cases j' with
    | checktime =>
      rw [lookup_checktime, name, softfloatApi_lookup hop] at hl
      cases hl
    | callDepthAssert =>
      rw [lookup_callDepthAssert, name, softfloatApi_lookup hop] at hl
      cases hl
    | softfloat op' hop' =>
      rw [name, name, softfloatApi_lookup hop, softfloatApi_lookup hop'] at hl
      cases hl
      rfl

end Injected

lemma preOpInjectors_float (h : op.isConvert = false) :
    preOpInjectors (.float op) = importInjector op.type (injectWhichOp op) := by
  cases op with
  | unop w op => cases w <;> rfl
  | binop w op => cases w <;> rfl
  | relop w op => cases w <;> rfl
  | trunc i sign w => cases i <;> cases w <;> rfl
  | convert w sign i => cases h
  | f32DemoteF64 => rfl
  | f64PromoteF32 => rfl

lemma preOpInjectors_convert (h : op.isConvert = true) : preOpInjectors (.float op) = passInjector := by
  cases op with
  | convert w sign i => rfl
  | _ => cases h

end XosChain.Wasm
