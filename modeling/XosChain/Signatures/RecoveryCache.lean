import XosChain.Basic
import XosChain.Lib.FlatMap

namespace XosChain.Signatures

open Lib List

structure Crypto (Transaction : Type) where
  packTransaction : Transaction → List UInt8
  packDigest : Digest → List UInt8
  packContextFreeData : List (List UInt8) → List UInt8
  hash : List UInt8 → Digest
  recover : Signature → Digest → Result PublicKey

structure CachedPubKey where
  trxId : Digest
  pubKey : PublicKey
  sig : Signature

structure RecoveryCache where
  entries : List CachedPubKey
  bySig : (entries.map CachedPubKey.sig).Nodup

namespace RecoveryCache

variable {cache : RecoveryCache} {e e' : CachedPubKey} {sig : Signature}

def empty : RecoveryCache := ⟨[], nodup_nil⟩

def find (cache : RecoveryCache) (sig : Signature) : Option CachedPubKey :=
  cache.entries.find? fun e => e.sig = sig

def emplaceBack (cache : RecoveryCache) (e : CachedPubKey) : RecoveryCache :=
  if h : e.sig ∈ cache.entries.map CachedPubKey.sig then cache
  else ⟨cache.entries ++ [e], by
    rw [map_append]
    exact List.Nodup.append cache.bySig (nodup_singleton _) (by simpa using h)⟩

def recoveryCacheSize : ℕ := 1000

def shrink (cache : RecoveryCache) : RecoveryCache :=
  ⟨cache.entries.drop (cache.entries.length - recoveryCacheSize),
    cache.bySig.sublist ((drop_sublist _ _).map _)⟩

lemma shrink_sublist : cache.shrink.entries.Sublist cache.entries := by
  rw [shrink]
  apply drop_sublist

lemma mem_of_find (h : cache.find sig = some e) : e ∈ cache.entries ∧ e.sig = sig :=
  ⟨mem_of_find?_eq_some h, by simpa using find?_some h⟩

lemma mem_emplaceBack (h : e' ∈ (cache.emplaceBack e).entries) : e' = e ∨ e' ∈ cache.entries := by
  rw [emplaceBack] at h
  split_ifs at h
  · exact .inr h
  · rcases mem_append.mp h with h | h
    · exact .inr h
    · exact .inl (by simpa using h)

end RecoveryCache

structure Signed (Transaction : Type) where
  trx : Transaction
  chainId : Digest
  contextFreeData : List (List UInt8) := []

structure Call (Transaction : Type) extends Signed Transaction where
  signatures : List Signature
  allowDuplicateKeys : Bool := false

abbrev KeySet := FlatMap PublicKey Unit

def duplicateSignature (key : PublicKey) : Thrown :=
  ⟨.txDuplicateSig,
    s!"transaction includes more than one signature signed using the same key associated with public key: {key}"⟩

namespace Crypto

variable {Transaction : Type} (c : Crypto Transaction)

def id (t : Transaction) : Digest := c.hash (c.packTransaction t)

def sigDigest (s : Signed Transaction) : Digest :=
  c.hash (c.packDigest s.chainId ++ c.packTransaction s.trx ++
    c.packDigest (if s.contextFreeData.length ≠ 0 then c.hash (c.packContextFreeData s.contextFreeData) else 0))

def recoverKey (s : Signed Transaction) (useCache : Bool) (sig : Signature) (cache : RecoveryCache) :
    Result PublicKey × RecoveryCache :=
  if useCache then
    match (cache.find sig).filter (fun e => e.trxId = c.id s.trx) with
    | none =>
      match c.recover sig (c.sigDigest s) with
      | .ok recov => (.ok recov, cache.emplaceBack ⟨c.id s.trx, recov, sig⟩)
      | .error e => (.error e, cache)
    | some e => (.ok e.pubKey, cache)
  else (c.recover sig (c.sigDigest s), cache)

def recoverKeys (call : Call Transaction) (useCache : Bool) :
    List Signature → KeySet → RecoveryCache → Result KeySet × RecoveryCache
  | [], keys, cache => (.ok keys, if useCache then cache.shrink else cache)
  | sig :: signatures, keys, cache =>
    match c.recoverKey call.toSigned useCache sig cache with
    | (.error e, cache) => (.error e, cache)
    | (.ok recov, cache) =>
      if call.allowDuplicateKeys = true ∨ keys.contains recov = false then
        recoverKeys call useCache signatures (keys.set recov ()) cache
      else (.error (duplicateSignature recov), cache)

def getSignatureKeys (call : Call Transaction) (useCache : Bool) (cache : RecoveryCache) :
    Result KeySet × RecoveryCache :=
  c.recoverKeys call useCache call.signatures FlatMap.empty cache

inductive CacheRun (S : Set (Signed Transaction)) : RecoveryCache → Prop
  | start : CacheRun S .empty
  | call {cache : RecoveryCache} (call : Call Transaction) (h : CacheRun S cache) (hs : call.toSigned ∈ S) :
      CacheRun S (c.getSignatureKeys call true cache).2
  | evict {cache cache' : RecoveryCache} (h : CacheRun S cache) (hs : cache'.entries.Sublist cache.entries) :
      CacheRun S cache'

def Recovered (S : Set (Signed Transaction)) (cache : RecoveryCache) : Prop :=
  ∀ e ∈ cache.entries, ∃ s ∈ S, c.id s.trx = e.trxId ∧ c.recover e.sig (c.sigDigest s) = .ok e.pubKey

def SameKeys (S : Set (Signed Transaction)) : Prop :=
  ∀ s ∈ S, ∀ t ∈ S, c.id s.trx = c.id t.trx →
    ∀ sig key, c.recover sig (c.sigDigest s) = .ok key → c.recover sig (c.sigDigest t) = .ok key

variable {c} {S : Set (Signed Transaction)} {s : Signed Transaction} {call : Call Transaction}
  {cache cache' : RecoveryCache} {sig : Signature}

lemma Recovered.sublist (h : c.Recovered S cache) (hs : cache'.entries.Sublist cache.entries) :
    c.Recovered S cache' :=
  fun e he => h e (hs.subset he)

lemma Recovered.recoverKey (sig : Signature) (h : c.Recovered S cache) (hs : s ∈ S) :
    c.Recovered S (c.recoverKey s true sig cache).2 := by
  rw [Crypto.recoverKey, if_pos rfl]
  split
  · split
    · rename_i recov hrec
      intro e he
      rcases RecoveryCache.mem_emplaceBack he with rfl | he
      · exact ⟨s, hs, rfl, hrec⟩
      · exact h e he
    · exact h
  · exact h

lemma Recovered.recoverKeys (hs : call.toSigned ∈ S) (signatures : List Signature) (keys : KeySet)
    (h : c.Recovered S cache) : c.Recovered S (c.recoverKeys call true signatures keys cache).2 := by
  induction signatures generalizing keys cache with
  | nil => exact h.sublist RecoveryCache.shrink_sublist
  | cons sig signatures ih =>
    have hnext := h.recoverKey sig hs
    rw [Crypto.recoverKeys]
    split
    · rename_i hk
      rwa [hk] at hnext
    · rename_i hk
      rw [hk] at hnext
      split_ifs
      · exact ih _ hnext
      · exact hnext

lemma CacheRun.recovered (h : c.CacheRun S cache) : c.Recovered S cache := by
  induction h with
  | start =>
    intro e he
    cases he
  | call call _ hs ih => exact ih.recoverKeys hs _ _
  | evict _ hs ih => exact ih.sublist hs

lemma recoverKey_transparent (sig : Signature) (hsame : c.SameKeys S) (h : c.Recovered S cache) (hs : s ∈ S) :
    (c.recoverKey s true sig cache).1 = c.recover sig (c.sigDigest s) := by
  rw [recoverKey, if_pos rfl]
  split
  · split
    · rename_i hrec
      exact hrec.symm
    · rename_i hrec
      exact hrec.symm
  · rename_i e he
    obtain ⟨hfind, hid⟩ := Option.filter_eq_some_iff.mp he
    obtain ⟨hmem, rfl⟩ := RecoveryCache.mem_of_find hfind
    obtain ⟨t, ht, htid, hrec⟩ := h e hmem
    have hid : e.trxId = c.id s.trx := by simpa using hid
    exact (hsame t ht s hs (htid.trans hid) e.sig e.pubKey hrec).symm

lemma recoverKeys_transparent (hsame : c.SameKeys S) (hs : call.toSigned ∈ S) (signatures : List Signature)
    (keys : KeySet) (h : c.Recovered S cache) :
    (c.recoverKeys call true signatures keys cache).1 = (c.recoverKeys call false signatures keys cache').1 := by
  induction signatures generalizing keys cache with
  | nil => rfl
  | cons sig signatures ih =>
    have hnext := h.recoverKey sig hs
    have hkey := recoverKey_transparent sig hsame h hs
    have hplain : c.recoverKey call.toSigned false sig cache' = (c.recover sig (c.sigDigest call.toSigned), cache') := rfl
    rw [recoverKeys, recoverKeys, hplain, ← hkey]
    cases hr : c.recoverKey call.toSigned true sig cache with
    | mk r next =>
      rw [hr] at hnext
      cases r with
      | error e => rfl
      | ok recov =>
        dsimp only
        split_ifs
        · exact ih _ hnext
        · rfl

lemma getSignatureKeys_single (s : Signed Transaction) (useCache : Bool) :
    (c.getSignatureKeys ⟨s, [sig], false⟩ useCache cache).1 =
      (c.recoverKey s useCache sig cache).1.map (fun key => FlatMap.empty.set key ()) := by
  rw [getSignatureKeys, recoverKeys]
  cases c.recoverKey s useCache sig cache with
  | mk r next =>
    cases r with
    | error e => rfl
    | ok recov => rfl

lemma recoverKey_hit {s t : Signed Transaction} {key : PublicKey} (hid : c.id s.trx = c.id t.trx)
    (hrec : c.recover sig (c.sigDigest s) = .ok key) :
    (c.recoverKey t true sig (c.getSignatureKeys ⟨s, [sig], false⟩ true .empty).2).1 = .ok key := by
  have hfind : (c.getSignatureKeys ⟨s, [sig], false⟩ true .empty).2.find sig = some ⟨c.id s.trx, key, sig⟩ := by
    simp [getSignatureKeys, recoverKeys, recoverKey, hrec, RecoveryCache.find, RecoveryCache.empty,
      RecoveryCache.emplaceBack, RecoveryCache.shrink, RecoveryCache.recoveryCacheSize, FlatMap.contains]
  rw [recoverKey, if_pos rfl, hfind, Option.filter_some, if_pos (by simp [hid])]

lemma singleton_injective : Function.Injective (fun key : PublicKey => (FlatMap.empty.set key () : KeySet)) := by
  intro key key' h
  have hf := congrArg (fun m : KeySet => m.keys) h
  simpa [FlatMap.keys, FlatMap.set, FlatMap.empty, insertEntry] using hf

theorem cache_transparent_iff :
    (∀ cache, c.CacheRun S cache → ∀ call : Call Transaction, call.toSigned ∈ S →
      (c.getSignatureKeys call true cache).1 = (c.getSignatureKeys call false cache).1) ↔ c.SameKeys S := by
  constructor
  · intro h s hs t ht hid sig key hrec
    have hrun := CacheRun.call (c := c) ⟨s, [sig], false⟩ .start hs
    have hcall := h _ hrun ⟨t, [sig], false⟩ ht
    rw [getSignatureKeys_single, getSignatureKeys_single, recoverKey_hit hid hrec] at hcall
    change Except.ok _ = (c.recover sig (c.sigDigest t)).map _ at hcall
    obtain ⟨key', hkey', heq⟩ := exists_of_map_ok hcall.symm
    rw [hkey', singleton_injective heq]
  · intro hsame cache hrun call hs
    exact recoverKeys_transparent hsame hs _ _ hrun.recovered

def summing : Crypto UInt8 where
  packTransaction t := [t]
  packDigest d := [UInt8.ofNat d]
  packContextFreeData data := data.flatten
  hash bytes := bytes.foldl (fun h b => h + b.toNat) 1
  recover sig digest := .ok (sig + digest)

theorem cached_key_ignores_context_free_data : ∃ cache, summing.CacheRun Set.univ cache ∧
    (summing.getSignatureKeys ⟨⟨5, 3, [[1]]⟩, [7], false⟩ true cache).1 ≠
      (summing.getSignatureKeys ⟨⟨5, 3, [[1]]⟩, [7], false⟩ false cache).1 := by
  refine ⟨_, .call ⟨⟨5, 3, []⟩, [7], false⟩ .start trivial, ?_⟩
  decide +kernel

end Crypto

end XosChain.Signatures
