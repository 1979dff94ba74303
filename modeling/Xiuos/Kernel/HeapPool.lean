import Xiuos.Kernel.HeapInit

namespace Xiuos.Kernel
open Lib List Nat
variable {cfg : HeapConfig} {fl : List Nat} {i : Fin 2}

def IsBlock (cfg : HeapConfig) (i : Fin 2) (base x : Nat) : Prop :=
  ∃ j < smallNumber cfg i, x = base + j * itemSize cfg i

def Listed (cfg : HeapConfig) (m : Mem) : Nat → List Nat → Prop
  | head, [] => head = 0
  | head, x :: xs => head = x ∧ Listed cfg m (cfg.get m x .size) xs

section
variable {base x y : Nat} {m m' : Mem}

lemma itemSize_eq : itemSize cfg i = smallBytes i + cfg.header := rfl

lemma smallBytes_pos (i : Fin 2) : 0 < smallBytes i := by
  rw [smallBytes, sizeof32B, sizeof64B]
  split <;> omega

lemma smallNumber_pos (cfg : HeapConfig) (i : Fin 2) : 0 < smallNumber cfg i := by
  have h32 := cfg.small32_range
  have h64 := cfg.small64_range
  rw [smallNumber]
  split <;> omega

lemma IsBlock.bounds (h : IsBlock cfg i base x) :
    base ≤ x ∧ x + itemSize cfg i ≤ base + smallSize cfg i := by
  obtain ⟨j, hj, rfl⟩ := h
  have hmul := Nat.mul_le_mul_right (itemSize cfg i) (succ_le_of_lt hj)
  rw [succ_mul] at hmul
  rw [smallSize, Nat.mul_comm (itemSize cfg i)]
  omega

lemma IsBlock.apart (h : IsBlock cfg i base x) (h' : IsBlock cfg i base y) :
    x = y ∨ x + itemSize cfg i ≤ y ∨ y + itemSize cfg i ≤ x := by
  obtain ⟨j, -, rfl⟩ := h
  obtain ⟨k, -, rfl⟩ := h'
  obtain hlt | rfl | hlt := Nat.lt_trichotomy j k
  · have hmul := Nat.mul_le_mul_right (itemSize cfg i) (succ_le_of_lt hlt)
    rw [succ_mul] at hmul
    omega
  · exact .inl rfl
  · have hmul := Nat.mul_le_mul_right (itemSize cfg i) (succ_le_of_lt hlt)
    rw [succ_mul] at hmul
    omega

lemma isBlock_iff : IsBlock cfg i base x ↔
    x ∈ (range (smallNumber cfg i)).map (base + · * itemSize cfg i) := by simp [IsBlock, eq_comm]

lemma length_le (hnodup : fl.Nodup) (hmem : ∀ x ∈ fl, IsBlock cfg i base x) :
    fl.length ≤ smallNumber cfg i := by
  have hsub := (subperm_of_subset hnodup fun x hx => isBlock_iff.mp (hmem x hx)).length_le
  simpa using hsub

lemma Listed.congr {head : Nat} (h : Listed cfg m head fl)
    (hm : ∀ x ∈ fl, cfg.get m' x .size = cfg.get m x .size) : Listed cfg m' head fl := by
  induction fl generalizing head with
  | nil => exact h
  | cons x fl ih =>
    refine ⟨h.1, ?_⟩
    rw [hm x mem_cons_self]
    exact ih h.2 fun y hy => hm y (mem_cons_of_mem _ hy)

end

@[simp] lemma setSegment_self (s : HeapState) (i : Fin 2) (f : Segment → Segment) :
    (setSegment s i f).staticManager i = f (s.staticManager i) := Function.update_self ..

structure BlockPool (cfg : HeapConfig) (s : HeapState) (i : Fin 2) (base : Nat) (fl : List Nat) :
    Prop where
  blockSize : (s.staticManager i).blockSize = smallBytes i
  total : (s.staticManager i).blockTotalCount = smallNumber cfg i
  count : (s.staticManager i).blockFreeCount = fl.length
  listed : Listed cfg s.mem (s.staticManager i).freelist fl
  isBlock : ∀ x ∈ fl, IsBlock cfg i base x
  nodup : fl.Nodup
  flag : ∀ x, IsBlock cfg i base x → cfg.get s.mem x .flag = staticBlockMask
  owner : ∀ x, IsBlock cfg i base x → x ∉ fl → cfg.get s.mem x .size = cfg.staticManager i

namespace BlockPool
variable {s s' : HeapState} {base x : Nat}

lemma congr (h : BlockPool cfg s i base fl) (hman : s'.staticManager i = s.staticManager i)
    (hm : ∀ x, IsBlock cfg i base x → ∀ y, x ≤ y → y < x + cfg.header → s'.mem y = s.mem y) :
    BlockPool cfg s' i base fl := by
  have hget {x : Nat} {f : Field} (hf : f.IsHeader) (hx : IsBlock cfg i base x) :
      cfg.get s'.mem x f = cfg.get s.mem x f := get_congr_header cfg hf (hm x hx)
  exact {
    blockSize := hman ▸ h.blockSize
    total := hman ▸ h.total
    count := hman ▸ h.count
    listed := hman ▸ h.listed.congr fun x hx => hget trivial (h.isBlock x hx)
    isBlock := h.isBlock
    nodup := h.nodup
    flag := fun x hx => (hget (f := .flag) trivial hx).trans (h.flag x hx)
    owner := fun x hx hout => (hget (f := .size) trivial hx).trans (h.owner x hx hout) }

def popMem (cfg : HeapConfig) (m : Mem) (i : Fin 2) (x : Nat) : Mem :=
  cfg.set (cfg.set m x .flag staticBlockMask) x .size (cfg.staticManager i)

lemma popSegment_eq (h : BlockPool cfg s i base (x :: fl)) :
    popSegment cfg s i = (setSegment { s with mem := popMem cfg s.mem i x } i ({ · with
      freelist := cfg.get s.mem x .size
      blockFreeCount := fl.length }), x) := by
  have hcount := h.count
  have hhead := h.listed.1
  rw [length_cons] at hcount
  rw [popSegment]
  simp only [hcount, hhead, gt_iff_lt, zero_lt_succ, if_true, Nat.add_sub_cancel]
  rw [get_set_of_ne cfg (by decide)]
  rfl

lemma popMem_outside {y : Nat} {m : Mem} (hy : y < x ∨ x + cfg.header ≤ y) :
    popMem cfg m i x y = m y := by
  rw [popMem, set_header_outside cfg (f := .size) trivial hy,
    set_header_outside cfg (f := .flag) trivial hy]

lemma pop (h : BlockPool cfg s i base (x :: fl)) (hman : cfg.staticManager i < cfg.limit) :
    BlockPool cfg (popSegment cfg s i).1 i base fl := by
  have hx := h.isBlock x mem_cons_self
  have hnot := (nodup_cons.mp h.nodup).1
  have hget {y : Nat} {f : Field} (hf : f.IsHeader) (hy : IsBlock cfg i base y) (hne : y ≠ x) :
      cfg.get (popMem cfg s.mem i x) y f = cfg.get s.mem y f := by
    have := hy.apart hx
    rw [itemSize_eq] at this
    exact get_congr_header cfg hf fun _ _ _ => popMem_outside (by omega)
  have hsize : cfg.get (popMem cfg s.mem i x) x .size = cfg.staticManager i :=
    (get_set_self cfg).trans (mod_eq_of_lt hman)
  have hflag : cfg.get (popMem cfg s.mem i x) x .flag = staticBlockMask := by
    rw [popMem, get_set_of_ne cfg (by decide), get_set_self]
    rfl
  rw [h.popSegment_eq]
  refine ⟨?_, ?_, ?_, ?_, fun y hy => h.isBlock y (mem_cons_of_mem _ hy),
    (nodup_cons.mp h.nodup).2, fun y hy => ?_, fun y hy hout => ?_⟩
  · rw [setSegment_self]
    exact h.blockSize
  · rw [setSegment_self]
    exact h.total
  · rw [setSegment_self]
  · rw [setSegment_self]
    refine h.listed.2.congr fun y hy =>
      hget (f := .size) trivial (h.isBlock y (mem_cons_of_mem _ hy)) ?_
    rintro rfl
    exact hnot hy
  · by_cases hyx : y = x
    · rw [hyx]
      exact hflag
    · exact (hget (f := .flag) trivial hy hyx).trans (h.flag y hy)
  · by_cases hyx : y = x
    · rw [hyx]
      exact hsize
    · exact (hget (f := .size) trivial hy hyx).trans (h.owner y hy (by simp [hyx, hout]))

lemma popSegment_nil (h : (s.staticManager i).blockFreeCount = 0) :
    popSegment cfg s i = (s, 0) := by
  rw [popSegment]
  simp [h]

lemma find_owner (hne : cfg.staticManager 0 ≠ cfg.staticManager 1) (i : Fin 2) :
    Fin.find? (fun j => cfg.staticManager j = cfg.staticManager i) = some i := by
  match i with
  | 0 => simp [Fin.find?]
  | 1 => simp [Fin.find?, hne]

lemma freelist_lt (h : BlockPool cfg s i base fl) (hlimit : base + smallSize cfg i ≤ cfg.limit) :
    (s.staticManager i).freelist < cfg.limit := by
  have hlisted := h.listed
  cases fl with
  | nil =>
    rw [show (s.staticManager i).freelist = 0 from hlisted]
    exact lt_of_lt_of_le (by decide) cfg.le_limit
  | cons y fl =>
    have hbounds := (h.isBlock y mem_cons_self).bounds
    have hpos := header_lt_freeNode cfg
    rw [itemSize_eq] at hbounds
    rw [hlisted.1]
    omega

def pushed (cfg : HeapConfig) (s : HeapState) (i : Fin 2) (x : Nat) : HeapState :=
  setSegment { s with mem := cfg.set s.mem x .size (s.staticManager i).freelist } i fun seg =>
    { seg with
      freelist := x
      blockFreeCount := seg.blockFreeCount + 1 }

lemma push (h : BlockPool cfg s i base fl) (hx : IsBlock cfg i base x) (hout : x ∉ fl)
    (hlimit : base + smallSize cfg i ≤ cfg.limit) :
      BlockPool cfg (pushed cfg s i x) i base (x :: fl) := by
  have hget {y : Nat} {f : Field} (hf : f.IsHeader) (hy : IsBlock cfg i base y) (hne : y ≠ x) :
      cfg.get (pushed cfg s i x).mem y f = cfg.get s.mem y f := by
    have := hy.apart hx
    rw [itemSize_eq] at this
    exact get_congr_header cfg hf fun _ _ _ => set_header_outside cfg trivial (by omega)
  refine ⟨?_, ?_, ?_, ?_, ?_, nodup_cons.mpr ⟨hout, h.nodup⟩, fun y hy => ?_,
    fun y hy hnot => ?_⟩
  · rw [pushed, setSegment_self]
    exact h.blockSize
  · rw [pushed, setSegment_self]
    exact h.total
  · rw [pushed, setSegment_self]
    exact congrArg (· + 1) h.count
  · have hsize : cfg.get (pushed cfg s i x).mem x .size = (s.staticManager i).freelist :=
      (get_set_self cfg).trans (mod_eq_of_lt (h.freelist_lt hlimit))
    have hhead : ((pushed cfg s i x).staticManager i).freelist = x := by
      rw [pushed, setSegment_self]
    refine ⟨hhead, ?_⟩
    rw [hsize]
    refine h.listed.congr fun y hy => hget (f := .size) trivial (h.isBlock y hy) ?_
    rintro rfl
    exact hout hy
  · intro y hy
    obtain rfl | hy := mem_cons.mp hy
    · exact hx
    · exact h.isBlock y hy
  · by_cases hyx : y = x
    · rw [hyx]
      exact (get_set_of_ne cfg (by decide)).trans (h.flag x hx)
    · exact (hget (f := .flag) trivial hy hyx).trans (h.flag y hy)
  · rw [mem_cons, not_or] at hnot
    exact (hget (f := .size) trivial hy hnot.1).trans (h.owner y hy hnot.2)

lemma smallMemFree_eq (h : BlockPool cfg s i base fl) (hx : IsBlock cfg i base x) (hout : x ∉ fl)
    (hlimit : base + smallSize cfg i ≤ cfg.limit)
    (hne : cfg.staticManager 0 ≠ cfg.staticManager 1) :
    smallMemFree cfg s (x + cfg.header) = some (pushed cfg s i x) := by
  have hpush := h.push hx hout hlimit
  have hle := length_le hpush.nodup hpush.isBlock
  rw [← hpush.count, ← hpush.total] at hle
  rw [smallMemFree, Nat.add_sub_cancel, h.owner x hx hout, find_owner hne]
  simp only [Option.bind_eq_bind, Option.bind_some]
  have hcheck : check cfg (((pushed cfg s i x).staticManager i).blockFreeCount ≤
      ((pushed cfg s i x).staticManager i).blockTotalCount) = some () := by
    rw [check, if_neg]
    simp [hle]
  rw [pushed] at hcheck
  rw [hcheck]
  rfl

end BlockPool

variable {m : Mem} {base item k : Nat}

lemma poolNodes_outside {y : Nat} (hitem : cfg.header ≤ item)
    (hy : y < base ∨ base + k * item ≤ y) : poolNodes cfg m base item k y = m y := by
  induction k with
  | zero => rfl
  | succ k ih =>
    rw [succ_mul] at hy
    simp only [poolNodes]
    rw [set_header_outside cfg (f := .flag) trivial (by omega),
      set_header_outside cfg (f := .size) trivial (by omega), ih (by omega)]

lemma poolNodes_get (hitem : cfg.header ≤ item) {j : Nat} (hj : j < k) :
    cfg.get (poolNodes cfg m base item k) (base + j * item) .size =
        (base + (j + 1) * item) % cfg.limit ∧
      cfg.get (poolNodes cfg m base item k) (base + j * item) .flag = staticBlockMask := by
  induction k with
  | zero => omega
  | succ k ih =>
    simp only [poolNodes]
    obtain hlt | rfl := Nat.lt_or_eq_of_le (le_of_lt_succ hj)
    · have hmul := Nat.mul_le_mul_right item (succ_le_of_lt hlt)
      rw [succ_mul] at hmul
      have hsame {m : Mem} {v w : Nat} {g : Field} (hg : g.IsHeader) :
          cfg.get (cfg.set (cfg.set m (base + k * item) .size v) (base + k * item) .flag w)
            (base + j * item) g = cfg.get m (base + j * item) g := by
        rw [get_set_apart cfg (f := .flag) trivial hg (by omega),
          get_set_apart cfg (f := .size) trivial hg (by omega)]
      rw [hsame (g := .size) trivial, hsame (g := .flag) trivial]
      exact ih hlt
    · rw [get_set_of_ne cfg (by decide), get_set_self, get_set_self]
      exact ⟨rfl, rfl⟩

lemma listed_range (f : Nat → Nat) {j : Nat}
    (hnext : ∀ t, j ≤ t → t + 1 < j + k → cfg.get m (f t) .size = f (t + 1))
    (hlast : 0 < k → cfg.get m (f (j + k - 1)) .size = 0) :
    Listed cfg m (if k = 0 then 0 else f j) ((List.range' j k).map f) := by
  induction k generalizing j with
  | zero => rfl
  | succ k ih =>
    rw [range'_succ, map_cons]
    refine ⟨if_neg (succ_ne_zero k), ?_⟩
    have hrest := ih (j := j + 1) (fun t h1 h2 => hnext t (by omega) (by omega))
      (fun _ => by
        have := hlast (by omega)
        rwa [show j + (k + 1) - 1 = j + 1 + k - 1 by omega] at this)
    by_cases hk : k = 0
    · subst hk
      have := hlast (by omega)
      simp only [Nat.zero_add, Nat.add_sub_cancel] at this
      rw [this]
      rfl
    · rw [hnext j (Nat.le_refl j) (by omega)]
      rwa [if_neg hk] at hrest

def blocks (cfg : HeapConfig) (i : Fin 2) (base : Nat) : List Nat :=
  (List.range (smallNumber cfg i)).map (base + · * itemSize cfg i)

lemma nodup_blocks (cfg : HeapConfig) (i : Fin 2) (base : Nat) : (blocks cfg i base).Nodup := by
  refine (nodup_map_iff_inj_on nodup_range).mpr fun j hj k hk h => ?_
  have hpos : 0 < itemSize cfg i := Nat.add_pos_left (smallBytes_pos i) _
  exact eq_of_mul_eq_mul_right hpos (Nat.add_left_cancel h)

lemma initPool_outside {i : Fin 2} {y : Nat} (hy : y < base ∨ base + smallSize cfg i ≤ y) :
    initPool cfg m base (itemSize cfg i) (smallNumber cfg i) y = m y := by
  have hpos := smallNumber_pos cfg i
  have hlast : IsBlock cfg i base (base + (smallNumber cfg i - 1) * itemSize cfg i) :=
    ⟨_, by omega, rfl⟩
  have hbounds := hlast.bounds
  have hitem : cfg.header ≤ itemSize cfg i := Nat.le_add_left _ _
  rw [initPool, set_header_outside cfg (f := .size) trivial (by omega)]
  exact poolNodes_outside hitem (by rw [smallSize, Nat.mul_comm] at hy; exact hy)

lemma initPool_headers {i : Fin 2} (hlimit : base + smallSize cfg i ≤ cfg.limit) :
    (∀ x, IsBlock cfg i base x →
      cfg.get (initPool cfg m base (itemSize cfg i) (smallNumber cfg i)) x .flag =
        staticBlockMask) ∧
    Listed cfg (initPool cfg m base (itemSize cfg i) (smallNumber cfg i)) base
      (blocks cfg i base) := by
  have hpos := smallNumber_pos cfg i
  have hitem : cfg.header ≤ itemSize cfg i := Nat.le_add_left _ _
  rw [initPool]
  constructor
  · rintro x ⟨j, hj, rfl⟩
    have hflag : cfg.get (poolNodes cfg m base _ _) (base + j * itemSize cfg i) .flag = _ :=
      (poolNodes_get hitem hj).2
    by_cases hlast : j = smallNumber cfg i - 1
    · subst hlast
      rw [get_set_of_ne cfg (by decide), hflag]
    · have hmul := Nat.mul_le_mul_right (itemSize cfg i)
        (show j + 1 ≤ smallNumber cfg i - 1 by omega)
      rw [succ_mul] at hmul
      rw [get_set_apart cfg (f := .size) (g := .flag) trivial trivial (by omega), hflag]
  · have hlist : Listed cfg (initPool cfg m base (itemSize cfg i) (smallNumber cfg i)) _ _ :=
      listed_range (k := smallNumber cfg i) (j := 0) (base + · * itemSize cfg i) ?_ ?_
    · simpa [blocks, hpos.ne', range_eq_range', initPool] using hlist
    · intro t _ ht
      have hmul := Nat.mul_le_mul_right (itemSize cfg i)
        (show t + 1 ≤ smallNumber cfg i - 1 by omega)
      have hbounds := (show IsBlock cfg i base (base + (t + 1) * itemSize cfg i) from
        ⟨t + 1, by omega, rfl⟩).bounds
      have hsize : cfg.get (poolNodes cfg m base _ _) (base + t * itemSize cfg i) .size = _ :=
        (poolNodes_get hitem (show t < smallNumber cfg i by omega)).1
      have hitem_pos : 0 < itemSize cfg i := Nat.add_pos_left (smallBytes_pos i) _
      rw [initPool, get_set_apart cfg (f := .size) (g := .size) trivial trivial
        (by rw [succ_mul] at hmul; omega), hsize]
      exact mod_eq_of_lt (by omega)
    · intro _
      rw [Nat.zero_add, initPool, get_set_self]
      exact zero_mod _

end Xiuos.Kernel
