import Mathlib.Tactic

namespace XosChain

abbrev AccountName := ℕ
abbrev PermissionName := ℕ
abbrev ActionName := ℕ
abbrev Digest := ℕ
abbrev BlockId := ℕ
abbrev PublicKey := ℕ
abbrev Signature := ℕ
abbrev Slot := ℕ
abbrev Bytes := List UInt8

inductive Exception where
  | blockValidateException
  | unlinkableBlockException
  | wrongProducer
  | producerScheduleException
  | producerDoubleConfirm
  | producerNotInSchedule
  | wrongSigningKey
  | forkDatabaseException
  | forkDbBlockNotFound
  | databaseException
  | rateLimitingStateInconsistent
  | resourceLimitException
  | txCpuUsageExceeded
  | txNetUsageExceeded
  | blockResourceExhausted
  | transactionException
  | actionValidateException
  | missingAuthException
  | irrelevantAuthException
  | unsatisfiedAuthorization
  | invalidPermission
  | permissionQueryException
  | accountQueryException
  | accountNameExistsException
  | unlinkableMinPermissionAction
  | keyBlacklistException
  | txIrrelevantSig
  | txNotFound
  | unpackException
  | actionTypeException
  | expiredTxException
  | txExpTooFarException
  | invalidRefBlockException
  | txDuplicate
  | txNoAuths
  | deferredTxDuplicate
  | cfaInsideGeneratedTx
  | unknownTransactionException
  | subjectiveBlockProductionException
  | setExactCode
  | invalidContractVmType
  | invalidContractVmVersion
  | invalidTablePayer
  | invalidTableIterator
  | tableAccessViolation
  | tableNotInCache
  | tableOperationNotPermitted
  | wasmExecutionError
  | blockNetUsageExceeded
  | blockCpuUsageExceeded
  | greylistNetUsageExceeded
  | greylistCpuUsageExceeded
  | deadlineException
  | leewayDeadlineException
  | actorWhitelistException
  | actorBlacklistException
  | contractWhitelistException
  | contractBlacklistException
  | actionBlacklistException
  | missingPendingBlockState
  | producerPrivKeyNotFound
  | producerException
  | overflowException
  | txDuplicateSig
  | eosioAssertMessageException
  | outOfRangeException
  | assertException
  | blockLogException
  | blockLogUnsupportedVersion
  | blockLogAppendFail
  | reversibleBlocksException
  | snapshotException
  | abiException
  | unsupportedAbiVersionException
  | invalidTypeInsideAbi
  | duplicateAbiTypeDefException
  | duplicateAbiStructDefException
  | duplicateAbiActionDefException
  | duplicateAbiTableDefException
  | duplicateAbiErrMsgDefException
  | duplicateAbiVariantDefException
  | abiCircularDefException
  | abiRecursionDepthException
  | packException
  | badCastException
  | keyNotFoundException
  | pluginException
  | unsupportedFeature
  | controllerEmitSignalException
  | checkpointException
  | symbolTypeException
  | parseErrorException
  | outOfRange
  | logicError
  | badAlloc
  | iosFailure
  | undefinedBehavior
  deriving DecidableEq

structure Thrown where
  code : Exception
  what : String
  deriving DecidableEq

def Thrown.isFc (e : Thrown) : Bool :=
  match e.code with
  | .outOfRange | .logicError | .badAlloc | .iosFailure | .undefinedBehavior => false
  | _ => true

abbrev Result := Except Thrown

def eosAssert (p : Prop) [Decidable p] (code : Exception) (what : String) : Result Unit :=
  if p then .ok () else .error ⟨code, what⟩

variable {β : Type} {p : Prop} {code : Exception} {what : String} {b : β} {next : Unit → Result β}

lemma result_bind {α : Type} {r : Result α} {next : α → Result β} :
    r >>= next = .ok b ↔ ∃ a, r = .ok a ∧ next a = .ok b := by
  rcases r with e | a <;> simp [Bind.bind, Except.bind]

@[simp] lemma eosAssert_eq_ok [Decidable p] {u : Unit} :
    eosAssert p code what = .ok u ↔ p := by
  simp only [eosAssert]
  split_ifs with h <;> simp [h]

lemma eosAssert_bind [Decidable p] :
    eosAssert p code what >>= next = .ok b ↔ p ∧ next () = .ok b := by
  rw [result_bind]
  exact ⟨fun ⟨_, ha, hn⟩ => ⟨eosAssert_eq_ok.mp ha, hn⟩, fun ⟨hp, hn⟩ => ⟨(), eosAssert_eq_ok.mpr hp, hn⟩⟩

lemma bind_ok {α : Type} {r : Result α} {next : α → Result β} (h : r >>= next = .ok b) :
    ∃ a, r = .ok a ∧ next a = .ok b :=
  result_bind.mp h

lemma eosAssert_ok [Decidable p] (h : eosAssert p code what >>= next = .ok b) :
    p ∧ next () = .ok b :=
  eosAssert_bind.mp h

lemma result_bind_error {α : Type} {r : Result α} {next : α → Result β} {e : Thrown} :
    r >>= next = .error e ↔ r = .error e ∨ ∃ a, r = .ok a ∧ next a = .error e := by
  rcases r with e' | a <;> simp [Bind.bind, Except.bind]

lemma eosAssert_bind_error [Decidable p] {e : Thrown} :
    eosAssert p code what >>= next = .error e ↔ (¬ p ∧ e = ⟨code, what⟩) ∨ (p ∧ next () = .error e) := by
  by_cases h : p <;> simp [eosAssert, h, Bind.bind, Except.bind, eq_comm]

lemma exists_of_map_ok {α : Type} {r : Result α} {f : α → β} (h : r.map f = .ok b) :
    ∃ a, r = .ok a ∧ f a = b := by
  cases r with
  | error e => cases h
  | ok a => exact ⟨a, rfl, Except.ok.inj h⟩

section

variable {α σ τ : Type} {f : σ → α → Result σ} {g : τ → α → Result τ} {l : List α}

lemma foldlM_invariant {P : σ → Prop} (hstep : ∀ s a t, P s → f s a = .ok t → P t) {s t : σ} (hs : P s)
    (h : l.foldlM f s = .ok t) : P t := by
  induction l generalizing s with
  | nil =>
    cases h
    exact hs
  | cons a l ih =>
    rw [List.foldlM_cons] at h
    obtain ⟨u, hu, h⟩ := bind_ok h
    exact ih (hstep s a u hs hu) h

lemma foldlM_simulation {R : σ → τ → Prop}
    (hstep : ∀ s s' a t, R s s' → f s a = .ok t → ∃ t', g s' a = .ok t' ∧ R t t') {s t : σ} {s' : τ} (hs : R s s')
    (h : l.foldlM f s = .ok t) : ∃ t', l.foldlM g s' = .ok t' ∧ R t t' := by
  induction l generalizing s s' with
  | nil =>
    cases h
    exact ⟨s', rfl, hs⟩
  | cons a l ih =>
    rw [List.foldlM_cons] at h
    obtain ⟨u, hu, h⟩ := bind_ok h
    obtain ⟨u', hu', hr⟩ := hstep s s' a u hs hu
    obtain ⟨t', ht', hr⟩ := ih hr h
    refine ⟨t', ?_, hr⟩
    rw [List.foldlM_cons]
    exact result_bind.mpr ⟨u', hu', ht'⟩

end

def uint8Max : ℕ := 2 ^ 8 - 1
def uint32Max : ℕ := 2 ^ 32 - 1
def uint64Max : ℕ := 2 ^ 64 - 1

def sub32 (a b : ℕ) : ℕ := if b ≤ a then a - b else a + 2 ^ 32 - b

lemma sub32_of_le {a b : ℕ} (h : b ≤ a) : sub32 a b = a - b := if_pos h

namespace Config

def producerRepetitions : ℕ := 12
def maxProducers : ℕ := 125
def maximumTrackedDposConfirmations : ℕ := 1024
def systemAccountName : AccountName := 6138663577826885632
def nullAccountName : AccountName := 6138663588472832000
def producersAccountName : AccountName := 6138663589497696256
def majorityProducersPermissionName : PermissionName := 12531424605554196480
def minorityProducersPermissionName : PermissionName := 12531424609916272640
def activeName : PermissionName := 3617214756542218240
def ownerName : PermissionName := 12044502819693133824
def eosioAnyName : PermissionName := 6138663581382606848
def eosioCodeName : PermissionName := 6138663582462279680

end Config

end XosChain
