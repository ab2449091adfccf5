import XosChain.History.Plugin
import XosChain.Lib.Derived

namespace XosChain.History

open Lib Config List FlatMap

abbrev AuthorityKey := AccountName ×ₗ PermissionName

abbrev Authorities := FlatMap AuthorityKey Authority

def keyRows (k : AuthorityKey) (auth : Authority) : List PublicKeyHistory :=
  auth.keys.map fun w => ⟨w.key, (ofLex k).1, (ofLex k).2⟩

def controlRows (k : AuthorityKey) (auth : Authority) : List AccountControlHistory :=
  auth.accounts.map fun w => ⟨(ofLex k).1, (ofLex k).2, w.permission.actor⟩

structure Mirrors (m : Authorities) (t : Tables) : Prop where
  keys : Derived keyRows m t.publicKeys
  controls : Derived controlRows m t.accountControls

def Authorities.setBy (m : Authorities) (act : Action) : Authorities :=
  if act.name = newaccountName then
    match act.asNewaccount with
    | .ok create =>
      (m.set (toLex (create.name, ownerName)) create.owner).set (toLex (create.name, activeName))
        create.active
    | .error _ => m
  else if act.name = updateauthName then
    match act.asUpdateauth with
    | .ok update => m.set (toLex (update.account, update.permission)) update.auth
    | .error _ => m
  else if act.name = deleteauthName then
    match act.asDeleteauth with
    | .ok del => m.erase (toLex (del.account, del.permission))
    | .error _ => m
  else m

def DistinctActors (auth : Authority) : Prop := (auth.accounts.map (·.permission.actor)).Nodup

instance (auth : Authority) : Decidable (DistinctActors auth) := inferInstanceAs (Decidable (List.Nodup _))

def SetsDistinctActors (act : Action) : Prop :=
  match act.data with
  | .newaccount create => DistinctActors create.owner ∧ DistinctActors create.active
  | .updateauth update => DistinctActors update.auth
  | _ => True

instance (act : Action) : Decidable (SetsDistinctActors act) := by
  unfold SetsDistinctActors
  split <;> infer_instance

section

variable {m : Authorities} {t : Tables} {k : AuthorityKey} {auth : Authority}

lemma keyRows_key (j : AuthorityKey) (w : Authority) : ∀ r ∈ keyRows j w, r.byAccountPermission = j := by
  intro r hr
  obtain ⟨x, -, rfl⟩ := mem_map.mp hr
  rfl

lemma controlRows_key (j : AuthorityKey) (w : Authority) : ∀ r ∈ controlRows j w, r.byControlledAuthority = j := by
  intro r hr
  obtain ⟨x, -, rfl⟩ := mem_map.mp hr
  rfl

lemma removeRange_eq {ρ : Type} (p : ρ → Bool) :
    ∀ (n : ℕ) (rows : List ρ), rows.length ≤ n → removeRange p n rows = rows.filter (fun r => !p r)
  | 0, rows, h => by
    rw [length_eq_zero_iff.mp (Nat.le_zero.mp h)]
    rfl
  | n + 1, rows, h => by
    rw [removeRange]
    split_ifs with hany
    · obtain ⟨r, hr, hp⟩ := any_eq_true.mp hany
      obtain ⟨a, l1, l2, -, ha, hl, he⟩ := exists_of_eraseP hr hp
      subst hl
      have hlen : (l1 ++ l2).length ≤ n := by
        simp only [length_append, length_cons] at h ⊢
        omega
      rw [he, removeRange_eq p n _ hlen]
      simp [ha]
    · symm
      apply filter_eq_self.mpr
      intro r hr
      simpa using fun hp => hany (any_eq_true.mpr ⟨r, hr, hp⟩)

def Tables.without (t : Tables) (k : AuthorityKey) : Tables :=
  { t with
    publicKeys := t.publicKeys.filter fun r => r.byAccountPermission ≠ k
    accountControls := t.accountControls.filter fun r => r.byControlledAuthority ≠ k }

def Tables.withRows (t : Tables) (k : AuthorityKey) (auth : Authority) : Tables :=
  { t with
    publicKeys := t.publicKeys ++ keyRows k auth
    accountControls := t.accountControls ++ controlRows k auth }

lemma removeRange_length {ρ : Type} (key : ρ → AuthorityKey) (k : AuthorityKey) (rows : List ρ) :
    removeRange (fun r => key r = k) rows.length rows = rows.filter fun r => key r ≠ k := by
  rw [removeRange_eq _ _ _ le_rfl]
  simp only [decide_not]

lemma removePublicKeys_eq (t : Tables) (a : AccountName) (p : PermissionName) : removePublicKeys a p t =
    .ok () { t with publicKeys := t.publicKeys.filter fun r => r.byAccountPermission ≠ toLex (a, p) } := by
  rw [← removeRange_length PublicKeyHistory.byAccountPermission]
  rfl

lemma removeAccountControls_eq (t : Tables) (a : AccountName) (p : PermissionName) : removeAccountControls a p t =
    .ok () { t with accountControls := t.accountControls.filter fun r => r.byControlledAuthority ≠ toLex (a, p) } := by
  rw [← removeRange_length AccountControlHistory.byControlledAuthority]
  rfl

lemma createPublicKey_eq (row : PublicKeyHistory) (t : Tables) :
    createPublicKey row t = .ok () { t with publicKeys := t.publicKeys ++ [row] } := rfl

lemma addKeys_eq (keys : List KeyWeight) (a : AccountName) (p : PermissionName) (t : Tables) :
    addKeys keys a p t = .ok () { t with publicKeys := t.publicKeys ++ keys.map fun w => ⟨w.key, a, p⟩ } := by
  rw [addKeys]
  induction keys generalizing t with
  | nil => simp; rfl
  | cons w keys ih =>
    rw [forM_cons, bind_of_ok (createPublicKey_eq _ t), ih]
    simp

lemma createAccountControl_eq {row : AccountControlHistory} (h : row ∉ t.accountControls) :
    createAccountControl row t = .ok () { t with accountControls := t.accountControls ++ [row] } := by
  have hget : (get : Handler Tables) t = .ok t t := rfl
  rw [createAccountControl, bind_of_ok hget, if_neg h]
  rfl

variable {p : PermissionName} {act : Action}

lemma addAccounts_eq {accounts : List PermissionLevelWeight} {a : AccountName}
    (hd : (accounts.map (·.permission.actor)).Nodup)
    (h : ∀ w ∈ accounts, (⟨a, p, w.permission.actor⟩ : AccountControlHistory) ∉ t.accountControls) :
    addAccounts accounts a p t =
      .ok () { t with accountControls := t.accountControls ++ accounts.map fun w => ⟨a, p, w.permission.actor⟩ } := by
  rw [addAccounts]
  induction accounts generalizing t with
  | nil => simp; rfl
  | cons w accounts ih =>
    obtain ⟨hw, hd⟩ := nodup_cons.mp hd
    rw [forM_cons, bind_of_ok (createAccountControl_eq (h w mem_cons_self)), ih hd]
    · simp
    · intro v hv
      have hne : v.permission.actor ≠ w.permission.actor := fun he => hw (mem_map.mpr ⟨v, hv, he⟩)
      simpa [hne] using h v (mem_cons_of_mem _ hv)

lemma addAuthority_eq {a : AccountName} (hd : DistinctActors auth)
    (h : ∀ r ∈ t.accountControls, r.byControlledAuthority ≠ toLex (a, p)) :
    (do addKeys auth.keys a p; addAccounts auth.accounts a p : Handler Unit) t =
      .ok () (t.withRows (toLex (a, p)) auth) := by
  rw [bind_of_ok (addKeys_eq _ _ _ t), addAccounts_eq hd]
  · rfl
  · intro w _ hw
    exact h _ hw rfl

lemma removeAuthority_eq (t : Tables) (a : AccountName) (p : PermissionName) :
    (do removePublicKeys a p; removeAccountControls a p : Handler Unit) t = .ok () (t.without (toLex (a, p))) := by
  rw [bind_of_ok (removePublicKeys_eq t a p), removeAccountControls_eq]
  rfl

lemma Mirrors.without (h : Mirrors m t) (k : AuthorityKey) : Mirrors (m.erase k) (t.without k) :=
  ⟨h.keys.erase keyRows_key k, h.controls.erase controlRows_key k⟩

lemma Mirrors.withRows (h : Mirrors m t) (hk : m.find? k = none) (auth : Authority) :
    Mirrors (m.set k auth) (t.withRows k auth) :=
  ⟨h.keys.insert keyRows_key hk auth, h.controls.insert controlRows_key hk auth⟩

lemma Mirrors.replaced (h : Mirrors m t) (k : AuthorityKey) (auth : Authority) :
    Mirrors (m.set k auth) ((t.without k).withRows k auth) :=
  ⟨h.keys.set keyRows_key k auth, h.controls.set controlRows_key k auth⟩

def SetsPermissions (act : Action) : Prop :=
  act.name = newaccountName ∨ act.name = updateauthName ∨ act.name = deleteauthName

instance (act : Action) : Decidable (SetsPermissions act) := inferInstanceAs (Decidable (_ ∨ _))

lemma onSystemAction_of_not (h : ¬ SetsPermissions act) (t : Tables) :
    onSystemAction act t = .ok () t := by
  simp only [SetsPermissions, not_or] at h
  rw [onSystemAction, if_neg h.1, if_neg h.2.1, if_neg h.2.2]
  rfl

lemma Authorities.setBy_of_not (h : ¬ SetsPermissions act) (m : Authorities) : m.setBy act = m := by
  simp only [SetsPermissions, not_or] at h
  rw [setBy, if_neg h.1, if_neg h.2.1, if_neg h.2.2]

lemma dataAs_eq {δ : Type} {d : δ} (ha : act.account = systemAccountName) (t : Tables) :
    dataAs act (.ok d) t = .ok d t := by
  rw [dataAs, if_neg (not_not.mpr ha)]
  rfl

lemma Mirrors.control_ne (h : Mirrors m t) (hk : m.find? k = none) :
    ∀ r ∈ t.accountControls, r.byControlledAuthority ≠ k :=
  fun _ hr => h.controls.key_ne controlRows_key hk hr

def Tables.SameRecords (t t' : Tables) : Prop :=
  t'.actionSequenceNums = t.actionSequenceNums ∧ t'.accountHistories = t.accountHistories

def Recorded (m : Authorities) (act : Action) (t : Tables) : Prop :=
  ∃ t', onSystemAction act t = .ok () t' ∧ Mirrors (m.setBy act) t' ∧ t.SameRecords t'

variable {act : Action}

def ownerKey (create : NewAccount) : AuthorityKey := toLex (create.name, ownerName)

def activeKey (create : NewAccount) : AuthorityKey := toLex (create.name, activeName)

lemma ownerKey_ne_activeKey (create : NewAccount) : ownerKey create ≠ activeKey create := by
  intro he
  exact absurd (Prod.mk.inj (toLex.injective he)).2 (by decide)

section

variable (h : Mirrors m t) (ha : act.account = systemAccountName)

include h ha

lemma recorded_newaccount {create : NewAccount} (hn : act.name = newaccountName) (hd : act.asNewaccount = .ok create)
    (howner : DistinctActors create.owner) (hactive : DistinctActors create.active)
    (hfresh : ∀ p, m.find? (toLex (create.name, p)) = none) : Recorded m act t := by
  have h1 := h.withRows (hfresh ownerName) create.owner
  have hnone : (m.set (ownerKey create) create.owner).find? (activeKey create) = none := by
    rw [find?_set_of_ne _ _ (ownerKey_ne_activeKey create)]
    exact hfresh activeName
  have hrun : onSystemAction act t =
      .ok () ((t.withRows (ownerKey create) create.owner).withRows (activeKey create) create.active) := by
    have hadd := addAuthority_eq howner (h.control_ne (hfresh ownerName))
    rw [onSystemAction, if_pos hn, hd, bind_of_ok (dataAs_eq ha t), ← bind_assoc, bind_of_ok hadd]
    exact addAuthority_eq hactive (h1.control_ne hnone)
  refine ⟨_, hrun, ?_, rfl, rfl⟩
  rw [Authorities.setBy, if_pos hn, hd]
  exact h1.withRows hnone create.active

lemma recorded_updateauth {update : UpdateAuth} (hn : act.name = updateauthName) (hd : act.asUpdateauth = .ok update)
    (hauth : DistinctActors update.auth) : Recorded m act t := by
  have hnew : act.name ≠ newaccountName := by
    rw [hn]
    decide
  have hgone := (h.without (toLex (update.account, update.permission))).control_ne (m.find?_erase_self _)
  have hrun : onSystemAction act t = .ok () ((t.without (toLex (update.account, update.permission))).withRows
      (toLex (update.account, update.permission)) update.auth) := by
    rw [onSystemAction, if_neg hnew, if_pos hn, hd, bind_of_ok (dataAs_eq ha t), ← bind_assoc,
      bind_of_ok (removeAuthority_eq t _ _)]
    exact addAuthority_eq hauth hgone
  refine ⟨_, hrun, ?_, rfl, rfl⟩
  rw [Authorities.setBy, if_neg hnew, if_pos hn, hd]
  exact h.replaced _ update.auth

lemma recorded_deleteauth {del : DeleteAuth} (hn : act.name = deleteauthName) (hd : act.asDeleteauth = .ok del) :
    Recorded m act t := by
  have hnew : act.name ≠ newaccountName := by
    rw [hn]
    decide
  have hupdate : act.name ≠ updateauthName := by
    rw [hn]
    decide
  have hrun : onSystemAction act t = .ok () (t.without (toLex (del.account, del.permission))) := by
    rw [onSystemAction, if_neg hnew, if_neg hupdate, if_pos hn, hd, bind_of_ok (dataAs_eq ha t)]
    exact removeAuthority_eq t _ _
  refine ⟨_, hrun, ?_, rfl, rfl⟩
  rw [Authorities.setBy, if_neg hnew, if_neg hupdate, if_pos hn, hd]
  exact h.without _

end

end

end XosChain.History
