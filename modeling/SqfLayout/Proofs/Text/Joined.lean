import Mathlib.Data.List.Basic
import SqfLayout.Text

/-! Texts that were joined from lines or items come apart at the same places. -/
namespace SqfLayout.Text

/-- The characters `a` and `b` do not stand next to each other, in this order. -/
def Lacks (a b : Char) (t : Text) : Prop := ¬ [a, b] <:+: t

section
variable {a b : Char}

@[simp] theorem lacks_nil : Lacks a b [] := by simp [Lacks]

@[simp] theorem lacks_cons {c : Char} {t : Text} :
    Lacks a b (c :: t) ↔ ¬ (c = a ∧ t.head? = some b) ∧ Lacks a b t := by
  unfold Lacks
  rw [List.infix_cons_iff, not_or]
  refine and_congr_left fun _ => not_congr ?_
  cases t with
  | nil => simp
  | cons d t => simp [List.cons_prefix_cons, eq_comm]

theorem lacks_of_not_mem {t : Text} (h : a ∉ t) : Lacks a b t := by
  intro hab
  exact h (hab.subset (by simp))

theorem lacks_append {u v : Text} {c : Char} (ha : c ≠ a) (hb : c ≠ b) (hu : Lacks a b u)
    (hv : Lacks a b v) : Lacks a b (u ++ c :: v) := by
  induction u with
  | nil => simpa [ha] using hv
  | cons d u ih =>
    rw [lacks_cons] at hu
    rw [List.cons_append, lacks_cons]
    refine ⟨?_, ih hu.2⟩
    rintro ⟨hd, hhead⟩
    cases u with
    | nil => exact hb (by simpa using hhead)
    | cons e u => exact hu.1 ⟨hd, by simpa using hhead⟩

end

theorem exists_splitLines (t : Text) :
    ∃ line others, splitLines t = line :: others ∧ '\n' ∉ line ∧ line <+: t := by
  induction t with
  | nil => exact ⟨[], [], rfl, by simp, List.prefix_rfl⟩
  | cons c t ih =>
    obtain ⟨line, others, hsplit, hline, hstart⟩ := ih
    rw [splitLines]
    by_cases hc : c = '\n'
    · exact ⟨[], _, if_pos hc, by simp, List.nil_prefix⟩
    · refine ⟨c :: line, others, by rw [if_neg hc, hsplit]; rfl, ?_, (List.prefix_cons_inj c).2 hstart⟩
      simp [hline, Ne.symm hc]

private theorem splitLines_of_not_mem {t : Text} (h : '\n' ∉ t) : splitLines t = [t] := by
  induction t with
  | nil => rfl
  | cons c t ih =>
    simp only [List.mem_cons, not_or] at h
    simp [splitLines, Ne.symm h.1, ih h.2]

theorem splitLines_append {t : Text} (h : '\n' ∉ t) (more : Text) :
    splitLines (t ++ '\n' :: more) = t :: splitLines more := by
  induction t with
  | nil => simp [splitLines]
  | cons c t ih =>
    simp only [List.mem_cons, not_or] at h
    simp [splitLines, Ne.symm h.1, ih h.2]

private theorem splitLines_intercalate {lines : List Text} (hne : lines ≠ [])
    (h : ∀ l ∈ lines, '\n' ∉ l) : splitLines (List.intercalate ['\n'] lines) = lines := by
  induction lines with
  | nil => exact absurd rfl hne
  | cons l lines ih =>
    have hl : '\n' ∉ l := h l (by simp)
    cases lines with
    | nil => simpa [List.intercalate] using splitLines_of_not_mem hl
    | cons l' lines =>
      rw [List.intercalate_cons_cons, List.append_assoc, List.singleton_append, splitLines_append hl,
        ih (by simp) fun k hk => h k (by simp [hk])]

theorem splitLines_eq_iff {t : Text} {pieces : List Text} : splitLines t = pieces ↔
    pieces ≠ [] ∧ (∀ piece ∈ pieces, '\n' ∉ piece) ∧ t = List.intercalate ['\n'] pieces := by
  constructor
  · rintro rfl
    induction t with
    | nil => simp [splitLines, List.intercalate]
    | cons c t ih =>
      obtain ⟨line, others, hsplit, -⟩ := exists_splitLines t
      rw [hsplit, List.forall_mem_cons] at ih
      obtain ⟨-, ⟨hline, hothers⟩, ht⟩ := ih
      rw [splitLines, hsplit]
      split
      · rename_i hc
        rw [hc, ht]
        exact ⟨by simp, by simpa using ⟨hline, hothers⟩, by simp [List.intercalate]⟩
      · rename_i hc
        rw [ht]
        refine ⟨by simp, by simpa using ⟨⟨Ne.symm hc, hline⟩, hothers⟩, ?_⟩
        cases others <;> simp [List.intercalate]
  · rintro ⟨hne, hlines, rfl⟩
    exact splitLines_intercalate hne hlines

theorem splitLines_ne_nil (t : Text) : splitLines t ≠ [] := (splitLines_eq_iff.1 rfl).1

private theorem splitItems_of_lacks {t : Text} (h : Lacks ',' ' ' t) : splitItems t = [t] := by
  induction t with
  | nil => rfl
  | cons c t ih =>
    rw [lacks_cons] at h
    cases t with
    | nil => rfl
    | cons d t =>
      have hfirst : ¬ (c = ',' ∧ d = ' ') := by simpa using h.1
      rw [splitItems, if_neg hfirst, ih h.2]
      rfl

private theorem splitItems_append {t : Text} (h : Lacks ',' ' ' t) (more : Text) :
    splitItems (t ++ ',' :: ' ' :: more) = t :: splitItems more := by
  induction t with
  | nil => simp [splitItems]
  | cons c t ih =>
    rw [lacks_cons] at h
    have hrest := ih h.2
    cases t with
    | nil =>
      simp only [List.nil_append, List.cons_append] at hrest ⊢
      rw [splitItems, if_neg (by simp), hrest]
      rfl
    | cons d t =>
      have hfirst : ¬ (c = ',' ∧ d = ' ') := by simpa using h.1
      simp only [List.cons_append] at hrest ⊢
      rw [splitItems, if_neg hfirst, hrest]
      rfl

theorem joinItems_cons_cons (t u : Text) (more : List Text) :
    joinItems (t :: u :: more) = t ++ ',' :: ' ' :: joinItems (u :: more) := by
  simp [joinItems]

@[simp] theorem joinItems_singleton (t : Text) : joinItems [t] = t := by
  simp [joinItems]

theorem splitItems_joinItems {items : List Text} (hne : items ≠ [])
    (h : ∀ t ∈ items, Lacks ',' ' ' t) : splitItems (joinItems items) = items := by
  induction items with
  | nil => exact absurd rfl hne
  | cons t items ih =>
    have ht : Lacks ',' ' ' t := h t (by simp)
    cases items with
    | nil => simpa using splitItems_of_lacks ht
    | cons u items =>
      rw [joinItems_cons_cons, splitItems_append ht, ih (by simp) fun k hk => h k (by simp [hk])]

theorem exists_splitItems (t : Text) :
    ∃ item others, splitItems t = item :: others ∧ item <+: t ∧
      joinItems (item :: others) = t ∧ ∀ u ∈ item :: others, Lacks ',' ' ' u := by
  fun_induction splitItems t with
  | case1 => exact ⟨[], [], rfl, List.prefix_rfl, by simp, by simp⟩
  | case2 c => exact ⟨[c], [], rfl, List.prefix_rfl, by simp, by simp⟩
  | case3 c d rest hmark ih =>
    obtain ⟨item, others, hsplit, _, hjoin, hlacks⟩ := ih
    refine ⟨[], item :: others, by rw [hsplit], List.nil_prefix, ?_, by simpa using hlacks⟩
    rw [joinItems_cons_cons, hjoin, hmark.1, hmark.2]
    rfl
  | case4 c d rest hmark ih =>
    obtain ⟨item, others, hsplit, hitem, hjoin, hlacks⟩ := ih
    refine ⟨c :: item, others, by rw [hsplit]; rfl, (List.prefix_cons_inj c).2 hitem, ?_, ?_⟩
    · cases others with
      | nil => simpa using hjoin
      | cons u others => simpa [joinItems_cons_cons] using hjoin
    · have hfirst : Lacks ',' ' ' (c :: item) := by
        refine lacks_cons.2 ⟨fun h => hmark ⟨h.1, ?_⟩, hlacks item (by simp)⟩
        obtain ⟨e, item, rfl⟩ := List.exists_cons_of_ne_nil (l := item) (by rintro rfl; simp at h)
        have hed : e = d := (List.cons_prefix_cons.1 hitem).1
        have he : e = ' ' := by simpa using h.2
        exact hed.symm.trans he
      simpa [hfirst] using fun u hu => hlacks u (by simp [hu])

theorem forall_joinItems {q : Char → Prop} {items : List Text} (hcomma : q ',') (hspace : q ' ')
    (h : ∀ t ∈ items, ∀ c ∈ t, q c) : ∀ c ∈ joinItems items, q c := by
  induction items with
  | nil => simp [joinItems, List.intercalate]
  | cons t items ih =>
    cases items with
    | nil => simpa using h
    | cons u items =>
      rw [joinItems_cons_cons]
      intro c hc
      simp only [List.mem_append, List.mem_cons] at hc
      rcases hc with hc | rfl | rfl | hc
      · exact h t (by simp) c hc
      · exact hcomma
      · exact hspace
      · exact ih (fun k hk => h k (by simp [hk])) c hc

theorem mem_joinItems {items : List Text} {t : Text} {c : Char} (ht : t ∈ items) (hc : c ∈ t) :
    c ∈ joinItems items := by
  induction items with
  | nil => simp at ht
  | cons u items ih =>
    cases items with
    | nil =>
      obtain rfl : t = u := by simpa using ht
      simpa using hc
    | cons v items =>
      rw [joinItems_cons_cons]
      rcases List.mem_cons.1 ht with rfl | ht
      · simp [hc]
      · simp [ih ht]

theorem lacks_joinItems {a b : Char} {items : List Text} (ha : a ≠ ',' ∧ a ≠ ' ')
    (hb : b ≠ ',' ∧ b ≠ ' ') (h : ∀ t ∈ items, Lacks a b t) : Lacks a b (joinItems items) := by
  induction items with
  | nil => simp [joinItems, List.intercalate]
  | cons t items ih =>
    cases items with
    | nil => simpa using h
    | cons u items =>
      have hmore := ih fun k hk => h k (by simp [hk])
      rw [joinItems_cons_cons]
      refine lacks_append ha.1.symm hb.1.symm (h t (by simp)) ?_
      simpa [ha.2.symm] using hmore

theorem getLast?_append_ne {a : Char} {t u : Text} (ht : t.getLast? ≠ some a)
    (hu : u.getLast? ≠ some a) : (t ++ u).getLast? ≠ some a := by
  rw [List.getLast?_append]
  cases hlast : u.getLast? with
  | none => simpa using ht
  | some b => simpa [hlast] using hu

theorem getLast?_joinItems_ne {a : Char} {items : List Text} (ha : a ≠ ' ')
    (h : ∀ t ∈ items, t.getLast? ≠ some a) : (joinItems items).getLast? ≠ some a := by
  induction items with
  | nil => simp [joinItems]
  | cons t items ih =>
    cases items with
    | nil => simpa using h
    | cons u items =>
      have hmore := ih fun k hk => h k (by simp [hk])
      rw [joinItems_cons_cons]
      refine getLast?_append_ne (h t (by simp)) ?_
      rw [← List.singleton_append, ← List.singleton_append (l := joinItems _), ← List.append_assoc]
      exact getLast?_append_ne (by simpa using ha.symm) hmore

theorem lacks_intercalate {a b : Char} {lines : List Text} (ha : a ≠ '\n') (hb : b ≠ '\n')
    (h : ∀ l ∈ lines, Lacks a b l) : Lacks a b (List.intercalate ['\n'] lines) := by
  induction lines with
  | nil => simp [List.intercalate]
  | cons l lines ih =>
    cases lines with
    | nil => simpa [List.intercalate] using h
    | cons l' lines =>
      rw [List.intercalate_cons_cons, List.append_assoc, List.singleton_append]
      exact lacks_append ha.symm hb.symm (h l (by simp)) (ih fun k hk => h k (by simp [hk]))

section
variable {α : Type} {t more : List α} {p : α → Bool}

theorem takeWhile_append_of_head? (ht : ∀ c ∈ t, p c = true) (hmore : ∀ c ∈ more.head?, p c = false) :
    (t ++ more).takeWhile p = t := by
  rw [List.takeWhile_append_of_pos ht]
  cases more with
  | nil => simp
  | cons c more => simp [hmore c rfl]

theorem dropWhile_append_of_head? (ht : ∀ c ∈ t, p c = true) (hmore : ∀ c ∈ more.head?, p c = false) :
    (t ++ more).dropWhile p = more := by
  rw [List.dropWhile_append_of_pos ht]
  cases more with
  | nil => rfl
  | cons c more => simp [hmore c rfl]

end

theorem isPrefixOf?_append (t u : Text) : List.isPrefixOf? t (t ++ u) = some u :=
  List.isPrefixOf?_eq_some_iff_append_eq.2 rfl

end SqfLayout.Text
