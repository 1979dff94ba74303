import Xiuos.Fs.Path
import Mathlib.Data.List.GetD

namespace Xiuos.Fs
open Lib List Option CString

lemma getD_append_add (l l' : List UInt8) (i : Nat) :
    (l ++ l').getD (l.length + i) 0 = l'.getD i 0 := by
  rw [getD_append_right l l' 0 _ (Nat.le_add_right _ _), Nat.add_sub_cancel_left]

lemma getD_append_length (l l' : List UInt8) : (l ++ l').getD l.length 0 = l'.getD 0 0 :=
  getD_append_add l l' 0

section
variable {l w : List UInt8}

lemma prevByte_append_replicate (l l' : List UInt8) {n k : Nat} (hk : k ≤ n) :
    prevByte (l ++ (replicate n 0 ++ l')) (l.length + k) =
      prevByte (l ++ (replicate n 0 ++ l')) l.length := by
  induction k with
  | zero => rfl
  | succ k ih =>
    have hlt : k < (replicate n (0 : UInt8)).length := by simpa using Nat.lt_of_succ_le hk
    rw [← Nat.add_assoc, prevByte, getD_append_add, getD_append _ _ _ _ hlt,
      getD_replicate 0 hk, if_pos rfl]
    exact ih (by omega)

lemma prevByte_concat (l l' : List UInt8) {c : UInt8} (hc : c ≠ 0) :
    prevByte (l ++ c :: l') (l.length + 1) = some l.length := by simp [prevByte, hc]

lemma componentStart_append (hl : Terminated 0 l) (hw : (0 : UInt8) ∉ w) (l' : List UInt8)
    {k : Nat} (hk : k ≤ w.length) : componentStart (l ++ (w ++ l')) (l.length + k) = l.length := by
  induction k with
  | zero =>
    obtain rfl | ⟨l, rfl⟩ := hl
    · rfl
    · simp [componentStart]
  | succ k ih =>
    have hlt : k < w.length := by omega
    have hne : w[k] ≠ 0 := fun h => hw (h ▸ getElem_mem hlt)
    rw [← Nat.add_assoc, componentStart, getD_append_add, getD_append _ _ _ _ hlt,
      getD_eq_getElem _ _ hlt, if_pos hne]
    exact ih (by omega)

lemma not_terminated (hw : w ≠ []) (hnul : (0 : UInt8) ∉ w) : ¬ Terminated 0 (l ++ w) := by
  intro h
  obtain rfl | ⟨w, rfl⟩ := h.of_append
  · exact hw rfl
  · simp at hnul

lemma erasePrev_append (hl : Terminated 0 l) (l' : List UInt8) :
    ∃ l₁, erasePrev (l ++ l') l.length = l₁ ++ l' ∧ l₁.length = l.length ∧
      words 0 l₁ = (words 0 l).dropLast := by
  obtain ⟨n, rfl⟩ | ⟨l₀, w, n, hw, hnul, rfl, hl₀⟩ := exists_last_word 0 l
  · have hprev : prevByte (replicate n 0 ++ l') (replicate n (0 : UInt8)).length = none := by
      have h := prevByte_append_replicate [] l' (Nat.le_refl n)
      simpa [prevByte] using h
    exact ⟨replicate n 0, by rw [erasePrev, hprev], rfl, by simp⟩
  · cases n with
    | zero => exact absurd (by simpa using hl) (not_terminated hw hnul)
    | succ n =>
      obtain ⟨w', c, rfl⟩ := (eq_nil_or_concat w).resolve_left hw
      rw [concat_eq_append] at hw hnul ⊢
      refine ⟨l₀ ++ (replicate (w' ++ [c]).length 0 ++ replicate (n + 1) 0), ?_, ?_, ?_⟩
      · have hc : c ≠ 0 := fun h => hnul (by simp [h])
        have hbuf : l₀ ++ (w' ++ [c]) ++ replicate (n + 1) 0 ++ l' =
            l₀ ++ ((w' ++ [c]) ++ 0 :: (replicate n 0 ++ l')) := by simp [replicate_succ]
        have hprev : prevByte (l₀ ++ ((w' ++ [c]) ++ 0 :: (replicate n 0 ++ l')))
            (l₀ ++ (w' ++ [c]) ++ replicate (n + 1) 0).length = some (l₀.length + w'.length) := by
          have h := prevByte_append_replicate (l₀ ++ w' ++ [c]) l' (Nat.le_refl (n + 1))
          have h' := prevByte_concat (l₀ ++ w') (replicate (n + 1) 0 ++ l') hc
          have hlen : l₀.length + (w'.length + (n + 1 + 1)) =
              l₀.length + (w'.length + (0 + 1)) + (n + 1) := by omega
          simp only [append_assoc, length_append, length_cons, length_nil,
            cons_append, nil_append, replicate_succ, length_replicate, hlen] at h h' ⊢
          exact h.trans h'
        have hstart := componentStart_append hl₀ hnul (0 :: (replicate n 0 ++ l'))
          (k := w'.length) (by simp)
        rw [hbuf, erasePrev, hprev]
        simp only [hstart]
        rw [CString.length, ofBuffer_append hnul, memset_append]
        simp [replicate_succ]
      · simp only [length_append, length_replicate, Nat.add_assoc]
      · rw [← append_assoc, words_append_replicate, words_append_replicate,
          words_append_replicate, words_append hl₀, words_of_not_mem hw hnul, dropLast_concat]

end

variable (stack : List (List UInt8))

section
variable {fuel : Nat} {l l' w : List UInt8}

lemma eraseDots_nul : eraseDots (fuel + 1) (l ++ 0 :: l') l.length =
    eraseDots fuel ((l ++ [0]) ++ l') (l ++ [0]).length := by
  have hbyte : (0 :: l').getD 0 0 = 0 := rfl
  rw [eraseDots, if_pos (by simp), getD_append_length, hbyte, if_pos rfl]
  simp

lemma eraseDots_end : eraseDots (fuel + 1) l l.length = some l := by
  rw [eraseDots, if_neg (Nat.lt_irrefl _)]

lemma eraseDots_dot : eraseDots (fuel + 1) (l ++ ([dot] ++ 0 :: l')) l.length =
    eraseDots fuel ((l ++ [0]) ++ 0 :: l') (l ++ [0]).length := by
  have hw : (0 : UInt8) ∉ [dot] := by decide
  have hbyte : ([dot] ++ 0 :: l').getD 0 0 = dot := rfl
  rw [eraseDots, if_pos (by simp), getD_append_length, hbyte, if_neg (by decide), if_pos rfl,
    CString.length, ofBuffer_append hw, if_pos (show [dot].length = 1 from rfl)]
  simp

lemma eraseDots_dots (hl : Terminated 0 l) (l' : List UInt8) :
    ∃ l₁, words 0 l₁ = (words 0 l).dropLast ∧
      ∀ fuel, eraseDots (fuel + 1) (l ++ ([dot, dot] ++ 0 :: l')) l.length =
        eraseDots fuel ((l₁ ++ [0, 0]) ++ 0 :: l') (l₁ ++ [0, 0]).length := by
  have hw : (0 : UInt8) ∉ [dot, dot] := by decide
  have hbyte : ([dot, dot] ++ 0 :: l').getD 0 0 = dot := rfl
  have hbyte' : ([dot, dot] ++ 0 :: l').getD 1 0 = dot := rfl
  obtain ⟨l₁, herase, hlen, hwords⟩ := erasePrev_append hl ([dot, dot] ++ 0 :: l')
  refine ⟨l₁, hwords, fun fuel => ?_⟩
  rw [eraseDots, if_pos (by simp), getD_append_length, getD_append_add, hbyte, hbyte',
    if_neg (by decide), if_pos rfl, CString.length, ofBuffer_append hw, if_neg (by decide),
    if_pos ⟨rfl, rfl⟩, herase, ← hlen]
  simp

section
variable (hnul : (0 : UInt8) ∉ w)
include hnul

lemma eraseDots_hidden (hw : Hidden w) :
    eraseDots (fuel + 1) (l ++ (w ++ 0 :: l')) l.length =
      eraseDots fuel (l ++ (w ++ 0 :: l')) l.length := by
  obtain ⟨hhead, hdot, hdots⟩ := hw
  obtain ⟨w, rfl⟩ := head?_eq_some_iff.mp hhead
  have hbyte : (dot :: w ++ 0 :: l').getD 0 0 = dot := rfl
  have hone : ¬ (dot :: w).length = 1 := by simpa using hdot
  have htwo : ¬ ((dot :: w).length = 2 ∧ (dot :: w ++ 0 :: l').getD 1 0 = dot) := by
    rintro ⟨hlen, hsecond⟩
    obtain ⟨c, rfl⟩ := length_eq_one_iff.mp (Nat.succ.inj hlen)
    exact hdots (by simpa using hsecond)
  nth_rewrite 1 [eraseDots]
  rw [if_pos (by simp), getD_append_length, getD_append_add, hbyte, if_neg (by decide),
    if_pos rfl, CString.length, ofBuffer_append hnul, if_neg hone, if_neg htwo]

lemma eraseDots_name (hw : w ≠ []) (hhead : w.head? ≠ some dot) :
    eraseDots (fuel + 1) (l ++ (w ++ 0 :: l')) l.length =
      eraseDots fuel ((l ++ w) ++ 0 :: l') (l ++ w).length := by
  obtain ⟨c, w, rfl⟩ := exists_cons_of_ne_nil hw
  have hbyte : (c :: w ++ 0 :: l').getD 0 0 = c := rfl
  have hc : c ≠ 0 := fun h => hnul (by simp [h])
  have hdot : c ≠ dot := fun h => hhead (by simp [h])
  rw [eraseDots, if_pos (by simp), getD_append_length, hbyte, if_neg hc, if_neg hdot,
    CString.length, ofBuffer_append hnul, append_assoc, length_append]

lemma eraseDots_hidden_none (hw : Hidden w) (fuel : Nat) :
    eraseDots fuel (l ++ (w ++ 0 :: l')) l.length = none := by
  induction fuel with
  | zero => rfl
  | succ fuel ih => rw [eraseDots_hidden hnul hw, ih]

end

def pushSeen (stack : List (List UInt8)) (c : List UInt8) : Option (List (List UInt8)) :=
  if Hidden c then none else some (push stack c)

lemma eraseDots_follows (hl' : Terminated 0 l') (hl : Terminated 0 l ∨ ∃ l₁, l' = 0 :: l₁) :
    Follows (fun fuel => eraseDots fuel (l ++ l') l.length)
      ((words 0 l').foldlM pushSeen (words 0 l))
      fun tmp cs => words 0 tmp = cs ∧ Terminated 0 tmp := by
  induction hn : l'.length using Nat.strong_induction_on generalizing l l' with
  | _ n ih =>
  obtain rfl | ⟨l₁, rfl⟩ | ⟨w, l₁, hw, hnul, rfl⟩ := hl'.cases
  · have hterm := hl.resolve_right (by simp)
    rw [append_nil]
    exact Follows.round (.pure ⟨rfl, hterm⟩) rfl fun _ => eraseDots_end
  · rw [words_cons_self, ← words_concat_self]
    refine Follows.round ?_ rfl fun _ => eraseDots_nul
    exact ih l₁.length (by simp [← hn]) (hl'.of_append (l := [0])) (.inl (.concat 0 l)) rfl
  · have hterm := hl.resolve_right fun ⟨l₂, h⟩ => by
      obtain ⟨c, w, rfl⟩ := exists_cons_of_ne_nil hw
      exact hnul (by simp [(List.cons.inj h).1])
    have hrest : ∀ {l₂}, Follows (fun fuel => eraseDots fuel (l₂ ++ 0 :: l₁) l₂.length)
        ((words 0 l₁).foldlM pushSeen (words 0 l₂))
        fun tmp cs => words 0 tmp = cs ∧ Terminated 0 tmp := by
      intro l₂
      have h := ih (0 :: l₁).length (by simp [← hn]; exact length_pos_iff.mpr hw)
        hl'.of_append (.inr ⟨l₁, rfl⟩) rfl (l := l₂)
      rwa [words_cons_self] at h
    rw [words_word_append hw hnul, foldlM_cons]
    by_cases hhidden : Hidden w
    · rw [pushSeen, if_pos hhidden]
      exact eraseDots_hidden_none hnul hhidden
    rw [pushSeen, if_neg hhidden]
    change Follows _ ((words 0 l₁).foldlM pushSeen (push (words 0 l) w)) _
    by_cases hhead : w.head? = some dot
    · obtain rfl | rfl : w = [dot] ∨ w = [dot, dot] := by
        by_contra h
        exact hhidden ⟨hhead, fun h' => h (.inl h'), fun h' => h (.inr h')⟩
      · have hpush : push (words 0 l) [dot] = words 0 (l ++ [0]) := by
          rw [words_concat_self]
          rfl
        rw [hpush]
        exact Follows.round hrest rfl fun _ => eraseDots_dot
      · obtain ⟨l₂, hwords, hstep⟩ := eraseDots_dots hterm l₁
        have hpush : push (words 0 l) [dot, dot] = words 0 (l₂ ++ [0, 0]) := by
          rw [words_append_cons, words_cons_self, words_nil, append_nil, hwords]
          rfl
        rw [hpush]
        exact Follows.round hrest rfl hstep
    · have hpush : push (words 0 l) w = words 0 (l ++ w) := by
        have hdot : w ≠ [dot] := fun h => hhead (by simp [h])
        have hdots : w ≠ [dot, dot] := fun h => hhead (by simp [h])
        rw [push, if_neg (by simp [hw, hdot]), if_neg hdots, words_append hterm,
          words_of_not_mem hw hnul]
      rw [hpush]
      exact Follows.round hrest rfl fun _ => eraseDots_name hnul hw hhead

end

variable {len fuel : Nat} {l l' w : List UInt8} {abspath : CString}

def joined (cs : List (List UInt8)) : List UInt8 := cs.flatMap (slash :: ·)

lemma joined_append (cs cs' : List (List UInt8)) : joined (cs ++ cs') = joined cs ++ joined cs' :=
  flatMap_append

lemma joinComponents_nul : joinComponents len (l ++ 0 :: l') (fuel + 1) l.length abspath =
    joinComponents len ((l ++ [0]) ++ l') fuel (l ++ [0]).length abspath := by
  have hbyte : (0 :: l').getD 0 0 = 0 := rfl
  rw [joinComponents, if_pos (by simp), getD_append_length, hbyte, if_pos rfl]
  simp

lemma joinComponents_end : joinComponents len l (fuel + 1) l.length abspath = some abspath := by
  rw [joinComponents, if_neg (Nat.lt_irrefl _)]

lemma joinComponents_name (hnul : (0 : UInt8) ∉ w) (hw : w ≠ [])
    (hlen : abspath.length + (w.length + 1) < len) :
    joinComponents len (l ++ (w ++ 0 :: l')) (fuel + 1) l.length abspath =
      joinComponents len ((l ++ w) ++ 0 :: l') fuel (l ++ w).length
        ((abspath.append (.single slash (by decide))).append ⟨w, hnul⟩) := by
  have hstring : ofBuffer (l ++ (w ++ 0 :: l')) l.length = ⟨w, hnul⟩ :=
    CString.ext (ofBuffer_append hnul l')
  have hbyte : (w ++ 0 :: l').getD 0 0 ≠ 0 := by
    obtain ⟨c, w, rfl⟩ := exists_cons_of_ne_nil hw
    exact fun h => hnul (by simp [show c = 0 from h])
  have hslash : strcat len abspath (.single slash (by decide)) =
      some (abspath.append (.single slash (by decide))) :=
    if_pos (by simp only [CString.length, single] at hlen ⊢; grind)
  have hname : strcat len (abspath.append (.single slash (by decide))) ⟨w, hnul⟩ =
      some ((abspath.append (.single slash (by decide))).append ⟨w, hnul⟩) :=
    if_pos (by simp only [CString.length, append, single] at hlen ⊢; grind)
  have hlt : l.length < (l ++ (w ++ 0 :: l')).length := by
    rw [length_append, length_append, length_cons]
    omega
  rw [joinComponents, if_pos hlt, getD_append_length, if_neg hbyte, hstring, hslash]
  simp only [bind_eq_bind, bind_some, hname, append_assoc, length_append]
  rfl

lemma joinComponents_follows (hl' : Terminated 0 l')
    (hl : Terminated 0 l ∨ ∃ l₁, l' = 0 :: l₁) (habspath : abspath.val = joined (words 0 l))
    (hlen : (joined (words 0 (l ++ l'))).length < len) :
    Follows (fun fuel => joinComponents len (l ++ l') fuel l.length abspath)
      (some (joined (words 0 (l ++ l')))) fun r s => r.val = s := by
  induction hn : l'.length using Nat.strong_induction_on generalizing l l' abspath with
  | _ n ih =>
  obtain rfl | ⟨l₁, rfl⟩ | ⟨w, l₁, hw, hnul, rfl⟩ := hl'.cases
  · rw [append_nil]
    exact Follows.round (.pure habspath) rfl fun _ => joinComponents_end
  · rw [← words_concat_self] at habspath
    have happ : l ++ 0 :: l₁ = (l ++ [0]) ++ l₁ := by simp
    rw [happ] at hlen
    refine Follows.round ?_ rfl fun _ => joinComponents_nul
    rw [happ]
    exact ih l₁.length (by simp [← hn]) (hl'.of_append (l := [0])) (.inl (.concat 0 l)) habspath
      hlen rfl
  · have hterm := hl.resolve_right fun ⟨l₂, h⟩ => by
      obtain ⟨c, w, rfl⟩ := exists_cons_of_ne_nil hw
      exact hnul (by simp [(List.cons.inj h).1])
    have happ : l ++ (w ++ 0 :: l₁) = (l ++ w) ++ 0 :: l₁ := by simp
    have hwords : words 0 (l ++ w) = words 0 l ++ [w] := by
      rw [words_append hterm, words_of_not_mem hw hnul]
    have hroom : abspath.length + (w.length + 1) < len := by
      rw [happ, words_append_cons, hwords, joined_append, joined_append, length_append,
        length_append, ← habspath] at hlen
      simp only [joined, flatMap_cons, flatMap_nil, append_nil, length_cons] at hlen
      exact Nat.lt_of_le_of_lt (Nat.le_add_right _ _) hlen
    refine Follows.round ?_ rfl fun _ => joinComponents_name hnul hw hroom
    rw [happ] at hlen ⊢
    refine ih (0 :: l₁).length (by simp [← hn]; exact length_pos_iff.mpr hw)
      hl'.of_append (.inr ⟨l₁, rfl⟩) ?_ hlen rfl
    rw [hwords, joined_append, ← habspath]
    simp [append, single, joined]

variable {cs : List (List UInt8)} {c : List UInt8} {workingDir path : CString}

lemma push_nil : push stack [] = stack := if_pos (.inl rfl)

lemma push_of_proper (hc : Proper c) (stack : List (List UInt8)) :
    push stack c = stack ++ [c] := by
  rw [push, if_neg (by simp [hc.ne_nil, hc.ne_dot]), if_neg hc.ne_dots]

variable {stack : List (List UInt8)}

lemma mem_push {c d : List UInt8} (h : d ∈ push stack c) :
    d ∈ stack ∨ d = c ∧ c ≠ [] ∧ c ≠ [dot] ∧ c ≠ [dot, dot] := by
  rw [push] at h
  split at h
  · exact .inl h
  · rename_i hskip
    split at h
    · exact .inl (dropLast_subset stack h)
    · rename_i hdots
      rw [not_or] at hskip
      obtain h | h := mem_append.mp h
      · exact .inl h
      · exact .inr ⟨mem_singleton.mp h, hskip.1, hskip.2, hdots⟩

lemma mem_foldl_push (h : c ∈ cs.foldl push stack) :
    c ∈ stack ∨ c ∈ cs ∧ c ≠ [] ∧ c ≠ [dot] ∧ c ≠ [dot, dot] := by
  induction cs generalizing stack with
  | nil => exact .inl h
  | cons d cs ih =>
    obtain h | ⟨h, hne⟩ := ih h
    · obtain h | ⟨rfl, hne⟩ := mem_push h
      · exact .inl h
      · exact .inr ⟨mem_cons_self, hne⟩
    · exact .inr ⟨mem_cons_of_mem d h, hne⟩

lemma foldl_push_filter (cs stack : List (List UInt8)) :
    (cs.filter (· ≠ [])).foldl push stack = cs.foldl push stack := by
  induction cs generalizing stack with
  | nil => rfl
  | cons c cs ih =>
    by_cases hc : c = []
    · simpa [hc, push_nil] using ih stack
    · simpa [hc] using ih (push stack c)

lemma foldl_push_of_proper (h : ∀ c ∈ cs, Proper c) (stack : List (List UInt8)) :
    cs.foldl push stack = stack ++ cs := by
  induction cs generalizing stack with
  | nil => simp
  | cons c cs ih =>
    rw [foldl_cons, push_of_proper (h c mem_cons_self), ih fun d hd => h d (mem_cons_of_mem c hd)]
    simp

lemma foldlM_pushSeen (cs stack : List (List UInt8)) :
    cs.foldlM pushSeen stack =
      if ∀ c ∈ cs, ¬ Hidden c then some (cs.foldl push stack) else none := by
  induction cs generalizing stack with
  | nil => simp
  | cons c cs ih =>
    by_cases hc : Hidden c
    · simp [pushSeen, hc]
    · simp [pushSeen, hc, ih]

lemma length_joined_push_le (stack : List (List UInt8)) (c : List UInt8) :
    (joined (push stack c)).length ≤ (joined stack).length + (joined [c]).length := by
  rw [push]
  split
  · exact Nat.le_add_right _ _
  · split
    · have h : (joined stack.dropLast).Sublist (joined stack) :=
        List.Sublist.flatMap (dropLast_sublist stack) _
      exact Nat.le_trans h.length_le (Nat.le_add_right _ _)
    · rw [joined_append, length_append]

lemma length_joined_foldl_le (cs stack : List (List UInt8)) :
    (joined (cs.foldl push stack)).length ≤ (joined stack).length + (joined cs).length := by
  induction cs generalizing stack with
  | nil => exact Nat.le_add_right _ _
  | cons c cs ih =>
    have hpush := length_joined_push_le stack c
    have hcons : (joined (c :: cs)).length = (joined [c]).length + (joined cs).length := by
      rw [← singleton_append, joined_append, length_append]
    have hrest := ih (push stack c)
    rw [foldl_cons]
    omega

lemma components_joinPath (workingDir path : CString) :
    components (joinPath workingDir path) = absoluteComponents workingDir path := by
  rw [joinPath, absoluteComponents]
  split
  · rfl
  · simp only [components, append, single, append_assoc,
      singleton_append, splitOn_append_cons_self]

lemma words_eq_filter (path : CString) :
    words slash path.val = (components path).filter (· ≠ []) := rfl

lemma render_head (cs : List (List UInt8)) : ∃ s, render cs = slash :: s := by
  rw [render]
  split
  · exact ⟨[], rfl⟩
  · rename_i hcs
    obtain ⟨c, cs, rfl⟩ := exists_cons_of_ne_nil hcs
    exact ⟨c ++ joined cs, by simp [joined]⟩

lemma joinPath_head (hwd : Normalised workingDir) (path : CString) :
    ∃ s, (joinPath workingDir path).val = slash :: s := by
  rw [joinPath]
  split
  · rename_i hslash
    cases hp : path.val with
    | nil => simp [byte, hp, slash] at hslash
    | cons c s =>
      rw [byte, hp] at hslash
      exact ⟨s, by rw [show c = slash from hslash]⟩
  · obtain ⟨cs, -, hval⟩ := hwd
    obtain ⟨s, hs⟩ := render_head cs
    exact ⟨s ++ slash :: path.val, by simp [append, single, hval, hs]⟩

lemma splitPath_eq (workingDir path : CString) :
    splitPath workingDir path =
      (joinPath workingDir path).val.map (fun c => if c = slash then 0 else c) ++ [0] := by
  rw [splitPath, map_append]
  rfl

lemma words_splitPath (workingDir path : CString) :
    words 0 (splitPath workingDir path) = words slash (joinPath workingDir path).val := by
  rw [splitPath_eq, words_concat_self, words_map (joinPath workingDir path).nul]

lemma foldlM_splitPath (workingDir path : CString) :
    (words 0 (splitPath workingDir path)).foldlM pushSeen [] =
      if ∀ c ∈ absoluteComponents workingDir path, ¬ Hidden c then
        some (normalise (absoluteComponents workingDir path))
      else none := by
  have hhidden : (∀ c ∈ (absoluteComponents workingDir path).filter (· ≠ []), ¬ Hidden c) ↔
      ∀ c ∈ absoluteComponents workingDir path, ¬ Hidden c := by
    refine ⟨fun h c hc hhid => ?_, fun h c hc => h c (mem_filter.mp hc).1⟩
    have hne : c ≠ [] := by
      rintro rfl
      exact absurd hhid.1 (by simp)
    exact h c (mem_filter.mpr ⟨hc, by simpa using hne⟩) hhid
  rw [words_splitPath, words_eq_filter, components_joinPath, foldlM_pushSeen, foldl_push_filter,
    normalise]
  exact if_congr hhidden rfl rfl

section
variable (hwd : Normalised workingDir)
include hwd

lemma length_joined_normalise_lt (path : CString) :
    (joined (normalise (absoluteComponents workingDir path))).length < pathLen workingDir path := by
  obtain ⟨s, hs⟩ := joinPath_head hwd path
  have hfold := length_joined_foldl_le (words slash (joinPath workingDir path).val) []
  have hwords := length_flatMap_words_le slash s
  rw [words_eq_filter, components_joinPath, foldl_push_filter, ← components_joinPath,
    ← words_eq_filter, hs, words_cons_self] at hfold
  rw [pathLen, CString.length, hs, length_cons, ← components_joinPath]
  calc (joined (normalise (components (joinPath workingDir path)))).length
    _ ≤ (joined []).length + (joined (words slash s)).length := hfold
    _ ≤ s.length + 1 := by simpa [joined] using hwords
    _ < s.length + 1 + 1 := Nat.lt_succ_self _

omit hwd in
lemma rooted_val {abspath : CString} {cs : List (List UInt8)} (h : abspath.val = joined cs) :
    (if abspath.byte 0 = 0 then single slash (by decide) else abspath).val = render cs := by
  rw [render]
  cases cs with
  | nil =>
    have hnil : abspath.byte 0 = 0 := by simp [byte, h, joined]
    rw [if_pos hnil, if_pos rfl]
    rfl
  | cons c cs =>
    have hne : abspath.byte 0 ≠ 0 := by simp [byte, h, joined, slash]
    rw [if_neg hne, if_neg (cons_ne_nil c cs), h, joined]

lemma getAbsolutePath_follows (path : CString) :
    Follows (fun fuel => getAbsolutePath fuel workingDir path true true)
      (if ∀ c ∈ absoluteComponents workingDir path, ¬ Hidden c then
        some (normalise (absoluteComponents workingDir path))
      else none)
      fun r cs => ∃ p : CString, r = some p ∧ p.val = render cs := by
  have hterm : Terminated 0 (splitPath workingDir path) := by
    rw [splitPath_eq]
    exact .concat 0 _
  have herase : Follows (fun fuel => eraseDots fuel (splitPath workingDir path) 0) _ _ :=
    eraseDots_follows hterm (.inl (.nil 0))
  rw [words_nil, foldlM_splitPath] at herase
  refine herase.andThen ?_
  rintro tmp cs hcs ⟨rfl, htmp⟩
  have hlen : (joined (words 0 tmp)).length < pathLen workingDir path := by
    rw [← Option.some.inj (ite_none_right_eq_some.mp hcs).2]
    exact length_joined_normalise_lt hwd path
  have hjoin : Returns (fun fuel => joinComponents (pathLen workingDir path) tmp fuel 0
      ⟨[], by simp⟩) (·.val = joined (words 0 tmp)) :=
    joinComponents_follows htmp (.inl (.nil 0)) (by simp [joined]) hlen
  exact hjoin.bind fun abspath habspath => Returns.pure ⟨_, rfl, rooted_val habspath⟩

lemma length_render_lt (path : CString) :
    (render (normalise (absoluteComponents workingDir path))).length < pathLen workingDir path := by
  rw [render]
  split
  · obtain ⟨s, hs⟩ := joinPath_head hwd path
    simp [pathLen, CString.length, hs]
  · exact length_joined_normalise_lt hwd path

end

lemma nul_not_mem_of_mem_components {c : List UInt8} (hc : c ∈ components path) :
    (0 : UInt8) ∉ c := by
  intro h
  apply path.nul
  have hmem : (0 : UInt8) ∈ (components path).flatMap (slash :: ·) :=
    mem_flatMap.mpr ⟨c, hc, mem_cons_of_mem slash h⟩
  rw [components, flatMap_splitOn] at hmem
  exact (mem_cons.mp hmem).resolve_left (by decide)

lemma proper_of_mem_normalise {c : List UInt8}
    (hc : c ∈ normalise (absoluteComponents workingDir path)) :
    c ∈ absoluteComponents workingDir path ∧ Proper c := by
  obtain ⟨hmem, hne, hdot, hdots⟩ := (mem_foldl_push hc).resolve_left not_mem_nil
  rw [← components_joinPath] at hmem ⊢
  exact ⟨hmem, hne, not_mem_of_mem_splitOn hmem, nul_not_mem_of_mem_components hmem, hdot, hdots⟩

lemma normalise_components_render (workingDir : CString) {cs : List (List UInt8)}
    (hcs : ∀ c ∈ cs, Proper c)
    (hpath : path.val = render cs) :
    absoluteComponents workingDir path = components path ∧ normalise (components path) = cs ∧
      ∀ c ∈ components path, c = [] ∨ c ∈ cs := by
  obtain ⟨s, hs⟩ := render_head cs
  have hslash : path.byte 0 = slash := by simp [byte, hpath, hs]
  have hwords : words slash path.val = cs := by
    rw [hpath, render]
    split
    · rename_i hnil
      rw [hnil]
      exact words_cons_self slash []
    · exact words_flatMap fun c hc => ⟨(hcs c hc).ne_nil, (hcs c hc).slash⟩
  rw [words_eq_filter] at hwords
  refine ⟨if_pos hslash, ?_, fun c hc => ?_⟩
  · rw [normalise, ← foldl_push_filter, hwords, foldl_push_of_proper hcs, nil_append]
  · by_cases hne : c = []
    · exact .inl hne
    · exact .inr (hwords ▸ mem_filter.mpr ⟨hc, by simpa using hne⟩)

theorem getAbsolutePath_normalises (hwd : Normalised workingDir) {fuel : Nat}
    {r : Option CString} (h : getAbsolutePath fuel workingDir path true true = some r) :
    ∃ abspath, r = some abspath ∧
      abspath.val = render (normalise (absoluteComponents workingDir path)) ∧
      (∀ workingDir, Normalised workingDir →
        Returns (fun fuel => getAbsolutePath fuel workingDir abspath true true)
          (· = some abspath)) ∧ abspath.length < pathLen workingDir path := by
  obtain ⟨cs, hcs, abspath, rfl, hval⟩ := (getAbsolutePath_follows hwd path).post h
  obtain ⟨hhidden, hcs⟩ := ite_none_right_eq_some.mp hcs
  cases hcs
  refine ⟨abspath, rfl, hval, fun wd hwd' => ?_, ?_⟩
  · obtain ⟨habs, hnorm, hmem⟩ := normalise_components_render wd
      (fun c hc => (proper_of_mem_normalise hc).2) hval
    have hfollows := getAbsolutePath_follows hwd' abspath
    rw [habs, hnorm, if_pos] at hfollows
    · refine Returns.mono hfollows ?_
      rintro r ⟨p, rfl, hp⟩
      rw [CString.ext (hp.trans hval.symm)]
    · intro c hc
      obtain rfl | hc := hmem c hc
      · exact fun h => absurd h.1 (by simp)
      · exact hhidden c (proper_of_mem_normalise hc).1
  · rw [CString.length, hval]
    exact length_render_lt hwd path

theorem getAbsolutePath_returns_iff (hwd : Normalised workingDir) (path : CString)
    (allocTmp allocAbspath : Bool) :
    Returns (fun fuel => getAbsolutePath fuel workingDir path allocTmp allocAbspath)
      (fun _ => True) ↔
      (allocTmp = true ∧ allocAbspath = true →
        ∀ c ∈ absoluteComponents workingDir path, ¬ Hidden c) := by
  by_cases halloc : allocTmp = true ∧ allocAbspath = true
  · obtain ⟨rfl, rfl⟩ := halloc
    have hfollows := getAbsolutePath_follows hwd path
    by_cases hhidden : ∀ c ∈ absoluteComponents workingDir path, ¬ Hidden c
    · rw [if_pos hhidden] at hfollows
      exact iff_of_true (Returns.mono hfollows fun _ _ => True.intro) fun _ => hhidden
    · rw [if_neg hhidden] at hfollows
      refine iff_of_false (fun h => ?_) fun h => hhidden (h ⟨rfl, rfl⟩)
      obtain ⟨r, -, n, hn⟩ := h.eventually
      exact absurd ((hfollows n).symm.trans (hn n (Nat.le_refl n))) (by simp)
  · refine iff_of_true ?_ fun h => absurd h halloc
    have hnull : ∀ fuel, getAbsolutePath fuel workingDir path allocTmp allocAbspath =
        some none := by
      intro fuel
      rw [getAbsolutePath, if_neg (by simpa using halloc)]
    simp only [hnull]
    exact Returns.pure True.intro

def rootDir : CString := .single slash slash_ne_zero

lemma rootDir_normalised : Normalised rootDir := ⟨[], by simp, rfl⟩

theorem getAbsolutePath_normalises_sample :
    ∃ abspath : CString, getAbsolutePath 40 rootDir
      ⟨[97, 47, 46, 46, 47, 47, 98, 47, 46], by decide⟩
        true true = some (some abspath) ∧ abspath.val = [47, 98] ∧
      abspath.val = render (normalise (absoluteComponents rootDir
        ⟨[97, 47, 46, 46, 47, 47, 98, 47, 46], by decide⟩)) := by
  have hrun : getAbsolutePath 40 rootDir ⟨[97, 47, 46, 46, 47, 47, 98, 47, 46], by decide⟩
      true true = some (some ⟨[47, 98], by decide⟩) := by
    decide +kernel
  obtain ⟨abspath, hr, hval, -⟩ := getAbsolutePath_normalises rootDir_normalised hrun
  cases hr
  exact ⟨_, hrun, rfl, hval⟩

theorem getAbsolutePath_returns_iff_sample :
    Returns (fun fuel => getAbsolutePath fuel rootDir ⟨[97, 47, 46, 46], by decide⟩ true true)
      (fun _ => True) :=
  (getAbsolutePath_returns_iff rootDir_normalised _ true true).mpr fun _ => by decide

theorem getAbsolutePath_hidden :
    Normalised rootDir ∧
      ∀ fuel, getAbsolutePath fuel rootDir ⟨[47, 46, 120], by decide⟩ true true = none := by
  have hfollows := getAbsolutePath_follows rootDir_normalised ⟨[47, 46, 120], by decide⟩
  rw [if_neg (by decide)] at hfollows
  exact ⟨rootDir_normalised, hfollows⟩

end Xiuos.Fs
