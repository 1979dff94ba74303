import Xiuos.Fs.PathLaws

/-! `GetMountPoint` and `GetRelativePath` of `iot-vfs.c`. -/

namespace Xiuos.Fs
open Lib List CString

structure MountPoint where
  mntPoint : CString
  mntPointLen : Nat
  len_eq : mntPointLen = mntPoint.length
  deriving DecidableEq

lemma MountPoint.eq_of_mntPoint {m m' : MountPoint} (h : m.mntPoint = m'.mntPoint) : m = m' := by
  have hm := m.len_eq
  have hm' := m'.len_eq
  cases m
  cases m'
  simp_all

variable (path : CString)

def matchMount (path : CString) (found : Option MountPoint × Nat) (itr : MountPoint) :
    Option MountPoint × Nat :=
  if itr.mntPointLen < found.2 ∨ path.length < itr.mntPointLen then found
  else if 1 < itr.mntPointLen ∧ path.byte itr.mntPointLen ≠ slash ∧
      path.byte itr.mntPointLen ≠ 0 then found
  else if strncmpEq itr.mntPointLen path.val itr.mntPoint.val then
    (some itr, itr.mntPointLen)
  else found

def getMountPoint (mntList : List MountPoint) (path : CString) : Option MountPoint :=
  (mntList.foldl (matchMount path) (none, 0)).1

def getRelativePath (mntPoint abspath : CString) : List UInt8 :=
  if mntPoint.length = abspath.length then []
  else (abspath.val.drop mntPoint.length).dropWhile (· = slash)

def Canonical (path : CString) : Prop :=
  ∃ cs, (∀ c ∈ cs, c ≠ [] ∧ slash ∉ c) ∧ path.val = render cs

def names (path : CString) : List (List UInt8) := words slash path.val

lemma Normalised.canonical {path : CString} (h : Normalised path) : Canonical path := by
  obtain ⟨cs, hcs, hpath⟩ := h
  exact ⟨cs, fun c hc => ⟨(hcs c hc).ne_nil, (hcs c hc).slash⟩, hpath⟩

section
variable {path mnt : CString} {cs ds : List (List UInt8)}

lemma joined_cases (cs : List (List UInt8)) :
    cs = [] ∧ joined cs = [] ∨ ∃ s, joined cs = slash :: s := by
  cases cs with
  | nil => exact .inl ⟨rfl, rfl⟩
  | cons c cs => exact .inr ⟨c ++ joined cs, by simp [joined]⟩

lemma Canonical.cases (h : Canonical path) :
    names path = [] ∧ path.val = [slash] ∨ names path ≠ [] ∧ path.val = joined (names path) := by
  obtain ⟨cs, hcs, hpath⟩ := h
  rw [names, hpath, render]
  split
  · exact .inl ⟨words_cons_self slash [], rfl⟩
  · rename_i hnil
    rw [words_flatMap hcs]
    exact .inr ⟨hnil, rfl⟩

lemma Canonical.head (h : Canonical path) : ∃ s, path.val = slash :: s := by
  obtain ⟨cs, -, hpath⟩ := h
  rw [hpath]
  exact render_head cs

lemma two_le_length_joined (hnil : names path ≠ []) : 2 ≤ (joined (names path)).length := by
  obtain ⟨c, cs, hcs⟩ := exists_cons_of_ne_nil hnil
  have hc : c ∈ words slash path.val := by
    rw [← names, hcs]
    exact mem_cons_self
  have hpos := length_pos_iff.mpr (mem_words hc).1
  rw [hcs, joined, flatMap_cons, length_append, length_cons]
  omega

def Matches (path : CString) (m : MountPoint) : Prop :=
  m.mntPointLen ≤ path.length ∧
    (1 < m.mntPointLen → path.byte m.mntPointLen = slash ∨ path.byte m.mntPointLen = 0) ∧
    path.val.take m.mntPointLen = m.mntPoint.val

lemma matches_iff {m : MountPoint} (hm : Canonical m.mntPoint) (hpath : Canonical path) :
    Matches path m ↔ names m.mntPoint <+: names path := by
  rw [Matches, m.len_eq, CString.length]
  obtain ⟨hnil, hroot⟩ | ⟨hne, hval⟩ := hm.cases
  · obtain ⟨s, hs⟩ := hpath.head
    rw [hnil, hroot]
    refine iff_of_true ⟨?_, fun h => absurd h (by simp), ?_⟩ nil_prefix
    · simp [CString.length, hs]
    · simp [hs]
  have hlen := two_le_length_joined hne
  have hwords : words slash (joined (names m.mntPoint)) = names m.mntPoint := by
    rw [← hval]
    rfl
  rw [hval]
  obtain ⟨hnil', hroot⟩ | ⟨hne', hval'⟩ := hpath.cases
  · refine iff_of_false (fun h => ?_) fun h => ?_
    · have hle := h.1
      rw [CString.length, hroot, length_singleton] at hle
      omega
    · rw [hnil', prefix_nil] at h
      exact hne h
  constructor
  · rintro ⟨hle, hbyte, htake⟩
    have hsplit : path.val = joined (names m.mntPoint) ++
        path.val.drop (joined (names m.mntPoint)).length := by
      nth_rewrite 1 [← take_append_drop (joined (names m.mntPoint)).length path.val]
      rw [htake]
    have hnext := hbyte (by omega)
    have hnul := path.nul
    rw [byte, hsplit, getD_append_length] at hnext
    rw [hsplit] at hnul
    have hnames : names path = words slash path.val := rfl
    rw [hnames, hsplit]
    cases hrest : path.val.drop (joined (names m.mntPoint)).length with
    | nil =>
      rw [append_nil]
      exact hwords.symm ▸ prefix_rfl
    | cons c s =>
      rw [hrest] at hnext hnul
      have hc : c = slash := hnext.resolve_right fun h => hnul (by simp [show c = 0 from h])
      rw [hc, words_append_cons, hwords]
      exact prefix_append _ _
  · rintro ⟨cs, hcs⟩
    have hsplit : path.val = joined (names m.mntPoint) ++ joined cs := by
      rw [hval', ← hcs, joined_append]
    rw [CString.length, byte, hsplit, take_left, length_append]
    refine ⟨Nat.le_add_right _ _, fun _ => ?_, rfl⟩
    rw [getD_append_length]
    obtain ⟨-, hjoined⟩ | ⟨s, hjoined⟩ := joined_cases cs
    · simp [hjoined]
    · simp [hjoined]

end

section
variable {path path' : CString} {cs : List (List UInt8)}

lemma Canonical.eq_of_names (h : Canonical path) (h' : Canonical path')
    (hnames : names path = names path') : path = path' := by
  refine CString.ext ?_
  obtain ⟨hnil, hroot⟩ | ⟨hne, hval⟩ := h.cases
  · obtain ⟨-, hroot'⟩ | ⟨hne', -⟩ := h'.cases
    · rw [hroot, hroot']
    · exact absurd (hnames ▸ hnil) hne'
  · obtain ⟨hnil', -⟩ | ⟨-, hval'⟩ := h'.cases
    · exact absurd (hnames ▸ hnil') hne
    · rw [hval, hval', hnames]

lemma Canonical.length_lt (h : Canonical path) (h' : Canonical path')
    (hnames : names path ++ cs = names path') (hcs : cs ≠ []) : path.length < path'.length := by
  have hne' : names path' ≠ [] := by simp [← hnames, hcs]
  obtain ⟨hnil', -⟩ | ⟨-, hval'⟩ := h'.cases
  · exact absurd hnil' hne'
  rw [CString.length, CString.length, hval']
  obtain ⟨hnil, hroot⟩ | ⟨-, hval⟩ := h.cases
  · rw [hroot]
    exact two_le_length_joined hne'
  · rw [hval, ← hnames, joined_append, length_append]
    obtain ⟨hnil, -⟩ | ⟨s, hs⟩ := joined_cases cs
    · exact absurd hnil hcs
    · simp [hs]

lemma intercalate_cons (c : List UInt8) (cs : List (List UInt8)) :
    [slash].intercalate (c :: cs) = c ++ joined cs := by
  induction cs generalizing c with
  | nil => simp [joined, intercalate]
  | cons d cs ih =>
    have h := ih d
    simp only [intercalate, intersperse_cons_cons, flatten_cons, joined, flatMap_cons] at h ⊢
    rw [h]
    simp

end

variable {path : CString} {mntList : List MountPoint}

structure Found (path : CString) (seen : List MountPoint) (found : Option MountPoint × Nat) :
    Prop where
  missing : found.1 = none → found.2 = 0 ∧ ∀ m ∈ seen, ¬ Matches path m
  best : ∀ m, found.1 = some m → m ∈ seen ∧ Matches path m ∧ found.2 = m.mntPointLen ∧
    ∀ m' ∈ seen, Matches path m' → m'.mntPointLen ≤ m.mntPointLen

instance (path : CString) (m : MountPoint) : Decidable (Matches path m) :=
  inferInstanceAs (Decidable (_ ∧ (_ → _ ∨ _) ∧ _))

lemma matchMount_eq (path : CString) (found : Option MountPoint × Nat) (itr : MountPoint) :
    matchMount path found itr =
      if found.2 ≤ itr.mntPointLen ∧ Matches path itr then (some itr, itr.mntPointLen)
      else found := by
  have htake : itr.mntPoint.val.take itr.mntPointLen = itr.mntPoint.val := by
    rw [itr.len_eq, CString.length, take_length]
  have hcmp : strncmpEq itr.mntPointLen path.val itr.mntPoint.val = true ↔
      path.val.take itr.mntPointLen = itr.mntPoint.val := by
    rw [strncmpEq_iff path.nul itr.mntPoint.nul, htake]
  rw [matchMount]
  by_cases hlen : itr.mntPointLen < found.2 ∨ path.length < itr.mntPointLen
  · rw [if_pos hlen, if_neg]
    rintro ⟨hge, hle, -⟩
    omega
  rw [if_neg hlen]
  rw [not_or, Nat.not_lt, Nat.not_lt] at hlen
  by_cases hnext : 1 < itr.mntPointLen ∧ path.byte itr.mntPointLen ≠ slash ∧
      path.byte itr.mntPointLen ≠ 0
  · rw [if_pos hnext, if_neg]
    rintro ⟨-, -, h, -⟩
    obtain h | h := h hnext.1
    · exact hnext.2.1 h
    · exact hnext.2.2 h
  have hbyte : 1 < itr.mntPointLen →
      path.byte itr.mntPointLen = slash ∨ path.byte itr.mntPointLen = 0 := by
    intro h
    by_contra hne
    exact hnext ⟨h, fun h' => hne (.inl h'), fun h' => hne (.inr h')⟩
  rw [if_neg hnext]
  by_cases heq : path.val.take itr.mntPointLen = itr.mntPoint.val
  · rw [if_pos (hcmp.mpr heq), if_pos ⟨hlen.1, hlen.2, hbyte, heq⟩]
  · rw [if_neg (fun h => heq (hcmp.mp h)), if_neg (fun h => heq h.2.2.2)]

variable {found : Option MountPoint × Nat} {seen : List MountPoint}

lemma Found.step (h : Found path seen found) (itr : MountPoint) :
    Found path (seen ++ [itr]) (matchMount path found itr) := by
  rw [matchMount_eq]
  split
  · rename_i hnew
    refine ⟨by simp, ?_⟩
    rintro m hm
    cases hm
    refine ⟨by simp, hnew.2, rfl, fun m' hm' hmatch => ?_⟩
    obtain hm' | hm' := mem_append.mp hm'
    · cases hfound : found.1 with
      | none => exact absurd hmatch ((h.missing hfound).2 m' hm')
      | some m =>
        obtain ⟨-, -, hlen, hmax⟩ := h.best m hfound
        exact Nat.le_trans (hmax m' hm' hmatch) (hlen ▸ hnew.1)
    · rw [mem_singleton.mp hm']
  · rename_i hold
    constructor
    · intro hnone
      obtain ⟨hzero, hseen⟩ := h.missing hnone
      refine ⟨hzero, fun m hm hmatch => ?_⟩
      obtain hm | hm := mem_append.mp hm
      · exact hseen m hm hmatch
      · rw [mem_singleton.mp hm] at hmatch
        exact hold ⟨by omega, hmatch⟩
    · intro m hm
      obtain ⟨hmem, hmatch, hlen, hmax⟩ := h.best m hm
      refine ⟨mem_append_left _ hmem, hmatch, hlen, fun m' hm' hmatch' => ?_⟩
      obtain hm' | hm' := mem_append.mp hm'
      · exact hmax m' hm' hmatch'
      · rw [mem_singleton.mp hm'] at hmatch' ⊢
        by_contra hlt
        exact hold ⟨by omega, hmatch'⟩

lemma Found.loop (h : Found path seen found) (mntList : List MountPoint) :
    Found path (seen ++ mntList) (mntList.foldl (matchMount path) found) := by
  induction mntList generalizing seen found with
  | nil => simpa using h
  | cons m mntList ih => simpa using ih (h.step m)

lemma found_getMountPoint (path : CString) (mntList : List MountPoint) :
    Found path mntList (mntList.foldl (matchMount path) (none, 0)) := by
  have hnil : Found path [] (none, 0) := ⟨fun _ => ⟨rfl, by simp⟩, by simp⟩
  exact hnil.loop mntList

lemma names_length_lt {m m' : MountPoint} (hm : Canonical m.mntPoint)
    (hm' : Canonical m'.mntPoint) (hmatch : Matches path m) (hmatch' : Matches path m')
    (hpath : Canonical path) (hlen : m'.mntPointLen ≤ m.mntPointLen)
    (hne : m'.mntPoint ≠ m.mntPoint) : (names m'.mntPoint).length < (names m.mntPoint).length := by
  have hpre := (matches_iff hm hpath).mp hmatch
  have hpre' := (matches_iff hm' hpath).mp hmatch'
  by_contra hle
  obtain ⟨cs, hcs⟩ := prefix_of_prefix_length_le hpre hpre' (Nat.le_of_not_lt hle)
  by_cases hnil : cs = []
  · rw [hnil, append_nil] at hcs
    exact hne (hm'.eq_of_names hm hcs.symm)
  · have hlt := hm.length_lt hm' hcs hnil
    rw [m.len_eq, m'.len_eq] at hlen
    omega

lemma getRelativePath_eq {mnt : CString} (hmnt : Canonical mnt) (hpath : Canonical path)
    (hpre : names mnt <+: names path) :
    getRelativePath mnt path = [slash].intercalate ((names path).drop (names mnt).length) := by
  obtain ⟨cs, hcs⟩ := hpre
  rw [← hcs, drop_left]
  cases cs with
  | nil =>
    rw [append_nil] at hcs
    rw [getRelativePath, hmnt.eq_of_names hpath hcs, if_pos rfl]
    rfl
  | cons c cs =>
    have hlt := hmnt.length_lt hpath hcs (cons_ne_nil c cs)
    have hc : c ∈ words slash path.val := by
      rw [← names, ← hcs]
      simp
    have hskip : (c ++ joined cs).dropWhile (· = slash) = c ++ joined cs := by
      obtain ⟨x, c, rfl⟩ := exists_cons_of_ne_nil (mem_words hc).1
      have hx : x ≠ slash := fun h => (mem_words hc).2 (by simp [h])
      simp [hx]
    have hval : path.val = joined (names mnt ++ c :: cs) := by
      obtain ⟨hnil, -⟩ | ⟨-, hval⟩ := hpath.cases
      · exact absurd (hcs.trans hnil) (by simp)
      · rw [hcs, hval]
    have hjoined : joined (c :: cs) = slash :: (c ++ joined cs) := by simp [joined]
    rw [getRelativePath, if_neg (Nat.ne_of_lt hlt), intercalate_cons, hval, joined_append, hjoined,
      CString.length]
    obtain ⟨hnil, hroot⟩ | ⟨-, hmval⟩ := hmnt.cases
    · rw [hnil, hroot]
      exact hskip
    · rw [← hmval, drop_left]
      simpa using hskip

theorem getMountPoint_longest (hmounts : ∀ m ∈ mntList, Canonical m.mntPoint)
    (hpath : Normalised path) :
    (getMountPoint mntList path = none →
      ∀ m ∈ mntList, ¬ names m.mntPoint <+: names path) ∧
    ∀ m, getMountPoint mntList path = some m →
      m ∈ mntList ∧ names m.mntPoint <+: names path ∧
      (∀ m' ∈ mntList, m' ≠ m → names m'.mntPoint <+: names path →
        (names m'.mntPoint).length < (names m.mntPoint).length) ∧
      getRelativePath m.mntPoint path =
        [slash].intercalate ((names path).drop (names m.mntPoint).length) := by
  have hfound := found_getMountPoint path mntList
  refine ⟨fun hnone m hm => ?_, fun m hm => ?_⟩
  · rw [← matches_iff (hmounts m hm) hpath.canonical]
    exact (hfound.missing hnone).2 m hm
  · obtain ⟨hmem, hmatch, -, hmax⟩ := hfound.best m hm
    have hpre := (matches_iff (hmounts m hmem) hpath.canonical).mp hmatch
    refine ⟨hmem, hpre, fun m' hm' hne hpre' => ?_,
      getRelativePath_eq (hmounts m hmem) hpath.canonical hpre⟩
    have hmatch' := (matches_iff (hmounts m' hm') hpath.canonical).mpr hpre'
    exact names_length_lt (hmounts m hmem) (hmounts m' hm') hmatch hmatch' hpath.canonical
      (hmax m' hm' hmatch') fun h => hne (MountPoint.eq_of_mntPoint h)

def sampleMounts : List MountPoint :=
  [⟨⟨[47], by decide⟩, 1, rfl⟩, ⟨⟨[47, 97], by decide⟩, 2, rfl⟩]

theorem getMountPoint_longest_sample :
    ∃ m, getMountPoint sampleMounts ⟨[47, 97, 47, 98], by decide⟩ = some m ∧
      m.mntPoint.val = [47, 97] ∧
      getRelativePath m.mntPoint ⟨[47, 97, 47, 98], by decide⟩ = [slash].intercalate
        ((names ⟨[47, 97, 47, 98], by decide⟩).drop (names m.mntPoint).length) := by
  have hmounts : ∀ m ∈ sampleMounts, Canonical m.mntPoint := by
    intro m hm
    simp only [sampleMounts, mem_cons, not_mem_nil, or_false] at hm
    obtain rfl | rfl := hm
    · exact ⟨[], by decide, rfl⟩
    · exact ⟨[[97]], by decide, rfl⟩
  have hpath : Normalised ⟨[47, 97, 47, 98], by decide⟩ := by
    refine ⟨[[97], [98]], fun c hc => ?_, rfl⟩
    simp only [mem_cons, not_mem_nil, or_false] at hc
    obtain rfl | rfl := hc
    · exact ⟨by decide, by decide, by decide, by decide, by decide⟩
    · exact ⟨by decide, by decide, by decide, by decide, by decide⟩
  have hrun : (getMountPoint sampleMounts ⟨[47, 97, 47, 98], by decide⟩).map (·.mntPoint.val) =
      some [47, 97] := by decide
  obtain ⟨m, hm, hval⟩ := Option.map_eq_some_iff.mp hrun
  exact ⟨m, hm, hval, ((getMountPoint_longest hmounts hpath).2 m hm).2.2.2⟩

end Xiuos.Fs
