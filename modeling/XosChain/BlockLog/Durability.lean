import XosChain.BlockLog.Operations

namespace XosChain.BlockLog

open Raw List State

variable {Block Genesis : Type} {F : Formats Block Genesis}

section

variable (F)

def lastAppended (a : Option (Content Block Genesis)) : Option Block := a.bind fun c => c.blocks.getLast?

def appendedAs (a : Option (Content Block Genesis)) (n : ℕ) : Option Block :=
  a.bind fun c => c.blocks.find? fun b => (F.blockNum b).val = n

structure Observed (a : Option (Content Block Genesis)) (s : State Block) : Prop where
  head : s.head = lastAppended a
  reads : ∀ n : Fin (2 ^ 32), readBlockByNum F s n = .ok (appendedAs F a n)

def after : Option (Content Block Genesis) → Op Block Genesis → Option (Content Block Genesis)
  | _, .reset gs firstBlock num => some ⟨gs, num, firstBlock.toList⟩
  | a, .append b => a.map fun c => c.add b
  | a, .reopen _ => a

def Valid : Option (Content Block Genesis) → Op Block Genesis → Prop
  | _, .reset gs firstBlock num =>
    (∀ b, firstBlock = some b → F.blockNum b = num) ∧ (Content.log F ⟨gs, num, firstBlock.toList⟩).length < 2 ^ 63
  | some c, .append b => (F.blockNum b).val = c.first + c.blocks.length ∧ ((c.add b).log F).length < 2 ^ 63
  | none, .append _ => False
  | _, .reopen _ => True

def Usable (c : Content Block Genesis) (cut : ℕ) : Prop :=
  (c.index F).take cut = [] ∨ 8 ≤ ((c.index F).take cut).length ∧
    ((c.index F).take cut = c.index F ∨ lastEntry ((c.index F).take cut) ≠ lastEntry (c.index F))

def Sound : Option (Content Block Genesis) → Op Block Genesis → Prop
  | a, .reset _ none _ => lastAppended a = none
  | some c, .reopen cut => 0 < c.first ∧ c.blocks ≠ [] ∧ Usable F c cut
  | _, _ => True

def Along (P : Option (Content Block Genesis) → Op Block Genesis → Prop) :
    Option (Content Block Genesis) → List (Op Block Genesis) → Prop
  | _, [] => True
  | a, op :: ops => P a op ∧ Along P (after a op) ops

def Durable : Option (Content Block Genesis) → State Block → List (Op Block Genesis) → Prop
  | a, s, [] => Observed F a s
  | a, s, op :: ops => Observed F a s ∧ ∃ s', s.apply F op = .ok s' ∧ Durable (after a op) s' ops

def Refines (a : Option (Content Block Genesis)) (s : State Block) : Prop :=
  match a with
  | some c => Holds F c s
  | none => s = {}

end

section

variable {a : Option (Content Block Genesis)} {c : Content Block Genesis} {s s' : State Block} {op : Op Block Genesis}
  {b : Block} {cut : ℕ}

lemma Refines.observed (hs : Refines F a s) : Observed F a s := by
  cases a with
  | none =>
    obtain rfl := hs
    exact ⟨rfl, fun _ => rfl⟩
  | some c => exact ⟨hs.head, fun n => readBlockByNum_eq hs n⟩

lemma wf_first {gs : Genesis} {firstBlock : Option Block} {num : Fin (2 ^ 32)}
    (hvalid : Valid F a (.reset gs firstBlock num)) : Content.Wf F ⟨gs, num, firstBlock.toList⟩ where
  numbers := by
    intro pre b post hblocks
    cases firstBlock with
    | none => exact absurd hblocks.symm (by simp)
    | some first =>
      obtain ⟨rfl, hcons⟩ | ⟨l, rfl, hnil⟩ := cons_eq_append_iff.mp hblocks
      · obtain ⟨rfl, -⟩ := List.cons.inj hcons
        rw [hvalid.1 b rfl]
        rfl
      · exact absurd hnil (by simp)
  first_lt := num.isLt
  fits := hvalid.2

lemma wf_add (hwf : c.Wf F) (hvalid : Valid F (some c) (.append b)) : (c.add b).Wf F where
  numbers := by
    intro pre x post hblocks
    obtain rfl | ⟨post, y, rfl⟩ := eq_nil_or_concat post
    · obtain ⟨hpre, hx⟩ := append_inj' hblocks rfl
      obtain rfl : b = x := singleton_inj.mp hx
      rw [← hpre]
      exact hvalid.1
    · rw [concat_eq_append, ← cons_append, ← append_assoc] at hblocks
      exact hwf.numbers pre x post (append_inj' hblocks rfl).1
  first_lt := hwf.first_lt
  fits := hvalid.2

lemma opened_holds (hwf : c.Wf F) (husable : Usable F c cut) : Holds F c (opened F c ((c.index F).take cut)) where
  wf := hwf
  block := rfl
  index := by
    rw [opened]
    split_ifs with hkept
    · obtain hnil | ⟨-, hall | hdiffers⟩ := husable
      · exact absurd hnil hkept.1
      · exact hall
      · exact absurd hkept.2 hdiffers
    · rfl
  head := rfl
  written := rfl
  first := rfl

lemma apply_refines (hs : Refines F a s) (hvalid : Valid F a op) (hsound : Sound F a op) :
    ∃ s', s.apply F op = .ok s' ∧ Refines F (after a op) s' := by
  cases op with
  | reset gs firstBlock num =>
    obtain ⟨s', hreset, hblock, hindex, hwritten, hfirst, hhead⟩ := reset_spec s gs hvalid.1
    refine ⟨s', hreset, wf_first hvalid, hblock, hindex, ?_, hwritten, hfirst⟩
    cases firstBlock with
    | some b => exact hhead
    | none =>
      rw [hhead, hs.observed.head]
      exact hsound
  | append b =>
    cases a with
    | none => exact absurd hvalid id
    | some c => exact append_holds hs (wf_add hs.wf hvalid)
  | reopen cut =>
    cases a with
    | none =>
      obtain rfl := hs
      refine ⟨{}, ?_, rfl⟩
      rw [apply, take_nil]
      rfl
    | some c =>
      obtain ⟨hfirst, hne, husable⟩ := hsound
      refine ⟨opened F c ((c.index F).take cut), ?_, opened_holds hs.wf husable⟩
      rw [apply, hs.block, hs.index]
      refine (openFiles_ok_iff hs.wf).mpr ⟨⟨hfirst, hne, ?_⟩, rfl⟩
      exact husable.imp_right And.left

lemma usable_of_observed (hwf : c.Wf F) (hne : c.blocks ≠ [])
    (hindex : (c.index F).take cut = [] ∨ 8 ≤ ((c.index F).take cut).length)
    (hobs : Observed F (some c) (opened F c ((c.index F).take cut))) : Usable F c cut := by
  by_cases hnil : (c.index F).take cut = []
  · exact .inl hnil
  refine .inr ⟨hindex.resolve_left hnil, ?_⟩
  by_contra hbad
  obtain ⟨hshort, hsame⟩ := not_or.mp hbad
  have hkept : (opened F c ((c.index F).take cut)).index = ⟨(c.index F).take cut, false⟩ :=
    if_pos ⟨hnil, not_not.mp hsame⟩
  have hlength : ((c.index F).take cut).length < 8 * c.blocks.length := by
    rw [← index_length (F := F), length_take]
    refine min_lt_iff.mpr (.inl (lt_of_not_ge fun hge => hshort (take_of_length_le hge)))
  obtain ⟨last, hlast⟩ := Option.ne_none_iff_exists'.mp (mt getLast?_eq_none_iff.mp hne)
  obtain ⟨pre, hpre⟩ := getLast?_eq_some_iff.mp hlast
  have hnum := hwf.numbers pre last [] hpre
  have hread := hobs.reads (F.blockNum last)
  obtain ⟨pos, hpos, -⟩ := bind_ok hread
  have hhead : (opened F c ((c.index F).take cut)).head = some last := hlast
  simp only [getBlockPos, hhead] at hpos
  rw [if_pos ⟨le_rfl, by change c.first ≤ _; omega⟩] at hpos
  obtain ⟨rest, hrest, hpos⟩ := bind_ok hpos
  obtain ⟨r, hr, -⟩ := bind_ok hpos
  rw [checkIndex, hkept] at hrest
  cases hrest
  rw [readNumber] at hr
  split_ifs at hr with hle
  change 8 ≤ (((c.index F).take cut).drop (8 * sub32 (F.blockNum last) c.first)).length at hle
  rw [hnum, sub32_of_le (Nat.le_add_right _ _), Nat.add_sub_cancel_left, length_drop] at hle
  rw [hpre, length_append, length_singleton] at hlength
  omega

lemma sound_of_observed (hs : Refines F a s) (hvalid : Valid F a op) (happly : s.apply F op = .ok s')
    (hobs : Observed F (after a op) s') : Sound F a op := by
  cases op with
  | reset gs firstBlock num =>
    cases firstBlock with
    | some b => trivial
    | none =>
      obtain ⟨t, hreset, -, -, -, -, hhead⟩ := reset_spec s gs hvalid.1
      obtain rfl := Except.ok.inj (hreset.symm.trans happly)
      change lastAppended a = none
      rw [← hs.observed.head]
      exact hhead.symm.trans hobs.head
  | append b => cases a <;> trivial
  | reopen cut =>
    cases a with
    | none => trivial
    | some c =>
      rw [apply, hs.block, hs.index] at happly
      obtain ⟨⟨hfirst, hne, hindex⟩, rfl⟩ := (openFiles_ok_iff hs.wf).mp happly
      exact ⟨hfirst, hne, usable_of_observed hs.wf hne hindex hobs⟩

variable {ops : List (Op Block Genesis)}

lemma Durable.observed (h : Durable F a s ops) : Observed F a s := by
  cases ops with
  | nil => exact h
  | cons op ops => exact h.1

lemma run_durable_iff (hs : Refines F a s) (hvalid : Along (Valid F) a ops) :
    Durable F a s ops ↔ Along (Sound F) a ops := by
  induction ops generalizing a s with
  | nil => exact iff_of_true hs.observed trivial
  | cons op ops ih =>
    obtain ⟨hop, hrest⟩ := hvalid
    constructor
    · rintro ⟨-, s', happly, hdurable⟩
      have hsound := sound_of_observed hs hop happly hdurable.observed
      obtain ⟨t, ht, hs'⟩ := apply_refines hs hop hsound
      obtain rfl := Except.ok.inj (ht.symm.trans happly)
      exact ⟨hsound, (ih hs' hrest).mp hdurable⟩
    · rintro ⟨hsound, hlater⟩
      obtain ⟨s', happly, hs'⟩ := apply_refines hs hop hsound
      exact ⟨hs.observed, s', happly, (ih hs' hrest).mpr hlater⟩

theorem durable_iff {ops : List (Op Block Genesis)} (hvalid : Along (Valid F) none ops) :
    Durable F none {} ops ↔ Along (Sound F) none ops :=
  run_durable_iff rfl hvalid

end

section

def numbered : Formats (Fin (2 ^ 32)) Unit where
  packBlock b := littleEndian 4 b
  unpackBlock bytes :=
    if 4 ≤ bytes.length then some (Fin.ofNat (2 ^ 32) (ofLittleEndian (bytes.take 4)), bytes.drop 4) else none
  unpackBlock_pack := by
    intro b rest
    have hlen := littleEndian_length 4 b
    rw [if_pos (by simp [hlen]), take_left' hlen, drop_left' hlen, ofLittleEndian_littleEndian,
      Nat.mod_eq_of_lt (show b.val < 256 ^ 4 from b.isLt), Fin.ofNat_val_eq_self]
  packGenesis _ := []
  unpackGenesis bytes := some ((), bytes)
  unpackGenesis_pack _ _ := rfl
  blockNum b := b

def restarts : List (Op (Fin (2 ^ 32)) Unit) :=
  [.reset () (some 1) 1, .append 2, .reopen 8, .append 3, .reopen 0]

theorem restarts_durable : Durable numbered none {} restarts := by
  have hvalid : Along (Valid numbered) none restarts := by
    refine ⟨⟨fun b hb => (Option.some.inj hb).symm, by decide⟩, ⟨rfl, by decide⟩, trivial, ⟨rfl, by decide⟩, trivial, trivial⟩
  have hsound : Along (Sound numbered) none restarts := by
    refine ⟨trivial, trivial, ⟨by decide, by decide, .inr ⟨by decide, .inr (by decide)⟩⟩, trivial, ?_, trivial⟩
    exact ⟨by decide, by decide, .inl rfl⟩
  exact (durable_iff hvalid).mpr hsound

lemma not_durable {op op' : Op (Fin (2 ^ 32)) Unit} {e : Thrown}
    (h : (apply numbered {} op >>= fun s => s.apply numbered op').map (fun _ => ()) = .error e) :
    ¬ Durable numbered none {} [op, op'] := by
  rintro ⟨-, s, hs, -, s', hs', -⟩
  rw [hs] at h
  change (s.apply numbered op').map _ = _ at h
  rw [hs'] at h
  cases h

theorem restarts_not_durable : ¬ Durable numbered none {} [.reset () none 1, .reopen 8] ∧
    ¬ Durable numbered none {} [.reset () (some 1) 1, .reset () none 1] ∧
    ¬ Durable numbered none {} [.reset () (some 1) 1, .reopen 4] := by
  refine ⟨not_durable (e := ⟨.undefinedBehavior, "head is null"⟩) (by decide +kernel), ?_,
    not_durable (e := failure) (by decide +kernel)⟩
  rintro ⟨-, s, hs, -, s', hs', hlast⟩
  have hhead : ((apply numbered {} (.reset () (some 1) 1) >>= fun s => s.apply numbered (.reset () none 1)).map
      fun s => s.head) = .ok (some 1) := by decide +kernel
  rw [hs] at hhead
  change (s.apply numbered (.reset () none 1)).map _ = _ at hhead
  rw [hs'] at hhead
  have hobserved : s'.head = none := hlast.head
  change Except.ok s'.head = _ at hhead
  rw [hobserved] at hhead
  cases hhead

end

end XosChain.BlockLog
