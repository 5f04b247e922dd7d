import SqfLayout.Proofs.Expression.Reading
import SqfLayout.Proofs.Expression.Reflowed

/-! What stands behind the marks of an array, its bracket and its commas: any filler, and then an item or
the closing bracket. -/
namespace SqfLayout.Expression
open Token (exists_split)

/-- The kinds of token that filler may stand behind. -/
def arrayMarks : List Token.Kind := [.leftBracket, .comma]

/-- What an item starts with, or the bracket that closes an array. -/
def Resumes (t : Token) : Prop := t.kind ∈ Token.Kind.rightBracket :: starts ∨ isSign t = true

def count (kind : Token.Kind) (x : List Token) : Nat := x.countP (·.kind = kind)

/-- As many braces are closed as are opened. -/
def Even (x : List Token) : Prop := count .leftBrace x = count .rightBrace x

section
variable {t u : Token} {x y z v w : List Token}

private theorem count_append (kind : Token.Kind) (x y : List Token) :
    count kind (x ++ y) = count kind x + count kind y :=
  List.countP_append

private theorem count_cons (kind : Token.Kind) (t : Token) (x : List Token) :
    count kind (t :: x) = count kind x + if t.kind = kind then 1 else 0 := by
  simp [count, List.countP_cons]

private theorem even_nil : Even [] := rfl

theorem Even.append_iff (hx : Even x) : Even (x ++ y) ↔ Even y := by
  unfold Even at hx ⊢
  rw [count_append, count_append, hx, Nat.add_left_cancel_iff]

private theorem even_cons (hopen : t.kind ≠ .leftBrace) (hclose : t.kind ≠ .rightBrace) :
    Even (t :: x) ↔ Even x := by
  simp [Even, count_cons, hopen, hclose]

private theorem Filler.even (hx : Filler x) : Even x := by
  have hnone : ∀ kind : Token.Kind, (kind = .space || kind.isLayout) = false → count kind x = 0 := by
    intro kind hkind
    refine List.countP_eq_zero.2 fun t ht heq => ?_
    have hfiller := hx t ht
    rw [of_decide_eq_true heq, hkind] at hfiller
    cases hfiller
  exact (hnone .leftBrace rfl).trans (hnone .rightBrace rfl).symm

private theorem Balanced.even (hx : Balanced x) : Even x := by
  induction hx with
  | nil => exact even_nil
  | plain _ hopen hclose _ ih => exact (even_cons hopen hclose).2 ih
  | block hl _ hr _ ihx ihy =>
    unfold Even at ihx ihy ⊢
    simp only [count_append, count_cons, List.cons_append, hl, hr]
    simp
    omega

private theorem Balanced.count_le (h : Balanced x) (hx : x = y ++ z) : count .rightBrace y ≤ count .leftBrace y := by
  induction h generalizing y z with
  | nil =>
    obtain ⟨rfl, -⟩ := List.append_eq_nil_iff.1 hx.symm
    exact Nat.le_refl _
  | plain _ hopen hclose _ ih =>
    cases y with
    | nil => exact Nat.le_refl _
    | cons u y =>
      obtain ⟨rfl, htail⟩ := List.cons.inj hx
      simpa [count_cons, hopen, hclose] using ih htail
  | @block l r x x' hl hbody hr _ ihx ihy =>
    cases y with
    | nil => exact Nat.le_refl _
    | cons u y =>
      obtain ⟨rfl, htail⟩ := List.cons.inj hx
      rw [count_cons, count_cons, hl]
      obtain ⟨w, rfl, hw⟩ | ⟨w, rfl, -⟩ := List.append_eq_append_iff.1 htail
      · -- The stretch ends behind the block, or with its closing brace.
        have heven : count .leftBrace x = count .rightBrace x := hbody.even
        cases w with
        | nil =>
          simp [heven]
        | cons s w =>
          obtain ⟨rfl, hbehind⟩ := List.cons.inj hw
          have hle := ihy hbehind
          simp only [count_append, count_cons, hr]
          simp
          omega
      · have hle := ihx rfl
        simp
        omega

private theorem Even.append (hx : Even x) (hy : Even y) : Even (x ++ y) := hx.append_iff.2 hy

private theorem even_word (h : t.kind ≠ .leftBrace ∧ t.kind ≠ .rightBrace) (hx : Even x) : Even (t :: x) :=
  (even_cons h.1 h.2).2 hx

private theorem Derives.even {form : Form} (h : Derives form x) : Even x := by
  induction h with
  | single _ ih | array _ ih => exact ih
  | chain _ hgap _ hop hspaces _ ihx ihy =>
    exact ((ihx.append hgap.filler.even).append (even_word (by simp [hop]) hspaces.filler.even)).append ihy
  | sign ht _ _ ih => exact even_word (by simp [ht]) ih
  | number ht | string ht | command ht => exact even_word (by simp [ht]) even_nil
  | code hl hbody hr => exact (Balanced.block hl hbody hr .nil).even
  | parens hl hbefore _ hafter hr ih =>
    exact (((even_word (by simp [hl]) hbefore.filler.even).append ih).append hafter.filler.even).append
      (even_word (by simp [hr]) even_nil)
  | empty hl hfiller hr => exact (even_word (by simp [hl]) hfiller.even).append (even_word (by simp [hr]) even_nil)
  | bracketed hl hfiller _ hr ih =>
    exact ((even_word (by simp [hl]) hfiller.even).append ih).append (even_word (by simp [hr]) even_nil)
  | last _ hfiller ih => exact ih.append hfiller.even
  | more _ hfiller hsep hfiller' _ ihx ihy =>
    exact ((ihx.append hfiller.even).append (even_word (by simp [hsep]) hfiller'.even)).append ihy

theorem Resumes.not_filler (h : Resumes t) : (t.kind = .space || t.kind.isLayout) = false := by
  obtain hkind | hsign := h
  · revert hkind
    generalize t.kind = kind
    simp only [starts, List.mem_cons, List.not_mem_nil, or_false]
    rintro (rfl | rfl | rfl | rfl | rfl | rfl | rfl) <;> rfl
  · rw [(isSign_iff.1 hsign).1]
    rfl

private theorem Derives.exists_resumes {form : Form} (h : Derives form x) : ∃ t more, x = t :: more ∧ Resumes t := by
  have hstart {t : Token} (ht : t.kind ∈ starts) : Resumes t := .inl (List.mem_cons_of_mem _ ht)
  induction h with
  | single _ ih | array _ ih => exact ih
  | sign ht hsign => exact ⟨_, _, rfl, .inr (by simpa [isSign, ht, or_assoc] using hsign)⟩
  | number ht | string ht | command ht => exact ⟨_, _, rfl, hstart (by simp [starts, ht])⟩
  | code hl | parens hl | empty hl | bracketed hl => exact ⟨_, _, rfl, hstart (by simp [starts, hl])⟩
  | chain _ _ _ _ _ _ ih | last _ _ ih | more _ _ _ _ _ ih =>
    obtain ⟨t, more, rfl, ht⟩ := ih
    exact ⟨t, _, rfl, ht⟩

def Unmarked (x : List Token) : Prop := ∀ t ∈ x, t.kind ∉ arrayMarks

private theorem Filler.unmarked (hx : Filler x) : Unmarked x := by
  intro t ht hmark
  have hkind := hx t ht
  simp only [arrayMarks, List.mem_cons, List.not_mem_nil, or_false] at hmark
  obtain h | h := hmark <;> simp [h, Token.Kind.isLayout] at hkind

private theorem unmarked_nil : Unmarked [] := by simp [Unmarked]

private theorem Unmarked.cons (ht : t.kind ∉ arrayMarks) (hx : Unmarked x) : Unmarked (t :: x) :=
  List.forall_mem_cons.2 ⟨ht, hx⟩

section
variable {p q : List Token → Prop} {filler : List Token} {mark : Token}

/-- Behind a mark stands some filler, for which any other filler may stand. -/
def Refill (p : List Token → Prop) (v : List Token) (mark : Token) (w : List Token) : Prop :=
  ∃ filler t more, w = filler ++ t :: more ∧ Filler filler ∧ Resumes t ∧
    ∀ filler', Filler filler' → p (v ++ mark :: (filler' ++ t :: more))

/-- Outside code blocks, the filler behind each mark does not matter. -/
def Refills (p : List Token → Prop) (x : List Token) : Prop :=
  ∀ v mark w, x = v ++ mark :: w → mark.kind ∈ arrayMarks → Even v → Refill p v mark w

private theorem Refills.imp (h : Refills p x) (himp : ∀ z, p z → q z) : Refills q x := by
  intro v mark w hx hmark heven
  obtain ⟨filler, t, more, hw, hfiller, ht, hagain⟩ := h v mark w hx hmark heven
  exact ⟨filler, t, more, hw, hfiller, ht, fun filler' hfiller' => himp _ (hagain filler' hfiller')⟩

private theorem refills_of_unmarked (hx : Unmarked x) : Refills p x := by
  rintro v mark w rfl hmark -
  exact absurd hmark (hx mark (by simp))

private theorem Refills.append_of (hx : Refills (fun z => p (z ++ y)) x)
    (hy : ∀ u mark w, y = u ++ mark :: w → mark.kind ∈ arrayMarks → Even (x ++ u) → Refill p (x ++ u) mark w) :
    Refills p (x ++ y) := by
  intro v mark w hsplit hmark hv
  obtain ⟨u, hu, rfl⟩ | ⟨u, rfl, hu⟩ := exists_split hsplit
  · obtain ⟨filler, t, more, rfl, hfiller, ht, hagain⟩ := hx v mark u hu hmark hv
    refine ⟨filler, t, more ++ y, by simp, hfiller, ht, fun filler' hfiller' => ?_⟩
    simpa using hagain filler' hfiller'
  · exact hy u mark w hu hmark hv

private theorem Refills.append (hx : Refills (fun z => p (z ++ y)) x) (heven : Even x)
    (hy : Refills (fun z => p (x ++ z)) y) : Refills p (x ++ y) := by
  refine hx.append_of fun u mark w hu hmark hv => ?_
  obtain ⟨filler, t, more, rfl, hfiller, ht, hagain⟩ := hy u mark w hu hmark (heven.append_iff.1 hv)
  refine ⟨filler, t, more, rfl, hfiller, ht, fun filler' hfiller' => ?_⟩
  simpa using hagain filler' hfiller'

private theorem Refills.append_unmarked (hx : Refills (fun z => p (z ++ y)) x) (hy : Unmarked y) :
    Refills p (x ++ y) := by
  refine hx.append_of fun u mark w hu hmark _ => ?_
  exact absurd hmark (hy mark (by simp [hu]))

private theorem Refills.cons (ht : t.kind ∈ arrayMarks → Refill p [] t x)
    (hbrace : t.kind ≠ .leftBrace ∧ t.kind ≠ .rightBrace)
    (hx : Refills (fun z => p (t :: z)) x) : Refills p (t :: x) := by
  intro v mark w hsplit hmark hv
  cases v with
  | nil =>
    obtain ⟨rfl, rfl⟩ := List.cons.inj hsplit
    exact ht hmark
  | cons u v =>
    obtain ⟨rfl, hbehind⟩ := List.cons.inj hsplit
    exact hx v mark w hbehind hmark ((even_cons hbrace.1 hbrace.2).1 hv)

/-- The first item of an array, or its closing bracket, stands behind the filler of a mark. -/
private theorem refill_of_resumes (hfiller : Filler filler) (hx : ∃ t more, x = t :: more ∧ Resumes t)
    (hagain : ∀ filler', Filler filler' → p (v ++ mark :: (filler' ++ x))) : Refill p v mark (filler ++ x) := by
  obtain ⟨t, more, rfl, ht⟩ := hx
  exact ⟨filler, t, more, rfl, hfiller, ht, hagain⟩

private theorem refills_code {l r : Token} {body : List Token} (hl : l.kind = .leftBrace) (hbody : Balanced body)
    (hr : r.kind = .rightBrace) : Refills p (l :: body ++ [r]) := by
  intro v mark w hsplit hmark heven
  have hother : ∀ kind ∈ arrayMarks, kind ≠ .leftBrace ∧ kind ≠ .rightBrace := by decide
  cases v with
  | nil =>
    obtain ⟨rfl, -⟩ := List.cons.inj hsplit
    exact absurd hl (hother _ hmark).1
  | cons u v =>
    obtain ⟨rfl, hbehind⟩ := List.cons.inj hsplit
    obtain ⟨w', rfl, -⟩ | ⟨w', -, hlast⟩ := exists_split hbehind
    · have hle := hbody.count_le rfl
      unfold Even at heven
      rw [count_cons, count_cons, if_pos hl, if_neg (by simp [hl])] at heven
      omega
    · cases w' with
      | nil =>
        obtain ⟨rfl, -⟩ := List.cons.inj hlast
        exact absurd hr (hother _ hmark).2
      | cons => simp at hlast

end

theorem Derives.refills {form : Form} (h : Derives form x) : Refills (Derives form) x := by
  induction h with
  | single _ ih => exact ih.imp fun _ => .single
  | array _ ih => exact ih.imp fun _ => .array
  | number ht | string ht | command ht =>
    exact refills_of_unmarked (unmarked_nil.cons (by simp [arrayMarks, ht]))
  | sign ht hsign _ ih =>
    exact .cons (by simp [arrayMarks, ht]) (by simp [ht]) (ih.imp fun _ => .sign ht hsign)
  | @chain left right op x gap spaces y hx hgap hone hop hspaces hy ihx ihy =>
    have heven : Even (x ++ gap ++ op :: spaces) :=
      (hx.even.append hgap.filler.even).append (even_word (by simp [hop]) hspaces.filler.even)
    refine .append (.append_unmarked (.append_unmarked (ihx.imp fun z hz => ?_) hgap.filler.unmarked)
      (hspaces.filler.unmarked.cons (by simp [arrayMarks, hop]))) heven (ihy.imp fun z hz => ?_)
    · exact .chain hz hgap hone hop hspaces hy
    · exact .chain hx hgap hone hop hspaces hz
  | code hl hbody hr => exact refills_code hl hbody hr
  | @parens l r e before x after hl hbefore _ hafter hr ih =>
    have heven : Even (l :: before) := even_word (by simp [hl]) hbefore.filler.even
    refine .append_unmarked (.append_unmarked (.append (refills_of_unmarked ?_) heven
      (ih.imp fun z hz => ?_)) hafter.filler.unmarked) (unmarked_nil.cons (by simp [arrayMarks, hr]))
    · exact hbefore.filler.unmarked.cons (by simp [arrayMarks, hl])
    · exact .parens hl hbefore hz hafter hr
  | empty hl hfiller hr =>
    refine .cons (fun _ => ?_) (by simp [hl]) (.append_unmarked (refills_of_unmarked hfiller.unmarked)
      (unmarked_nil.cons (by simp [arrayMarks, hr])))
    refine refill_of_resumes hfiller ⟨_, [], rfl, .inl (by simp [hr])⟩ fun filler' hfiller' => ?_
    exact .empty hl hfiller' hr
  | @bracketed l r items filler x hl hfiller hx hr ih =>
    refine .append_unmarked (.cons (fun _ => ?_) (by simp [hl]) (.append (refills_of_unmarked hfiller.unmarked)
      hfiller.even (ih.imp fun z hz => ?_))) (unmarked_nil.cons (by simp [arrayMarks, hr]))
    · refine refill_of_resumes hfiller hx.exists_resumes fun filler' hfiller' => ?_
      simpa using Derives.bracketed hl hfiller' hx hr
    · exact .bracketed hl hfiller hz hr
  | last _ hfiller ih => exact .append_unmarked (ih.imp fun z hz => .last hz hfiller) hfiller.unmarked
  | @more e es sep x filler filler' y hx hfiller hsep hfiller' hy ihx ihy =>
    rw [List.append_assoc, List.cons_append]
    refine .append (.append_unmarked (ihx.imp fun z hz => ?_) hfiller.unmarked) (hx.even.append hfiller.even)
      (.cons (fun _ => ?_) (by simp [hsep]) (.append (refills_of_unmarked hfiller'.unmarked) hfiller'.even
        (ihy.imp fun z hz => ?_)))
    · simpa using Derives.more hz hfiller hsep hfiller' hy
    · refine refill_of_resumes hfiller' hy.exists_resumes fun filler'' hfiller'' => ?_
      simpa using Derives.more hx hfiller hsep hfiller'' hy
    · simpa using Derives.more hx hfiller hsep hfiller' hz

end
end SqfLayout.Expression
