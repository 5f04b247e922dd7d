import SqfLayout.Proofs.Expression.Blame
import SqfLayout.Proofs.Expression.Reading
import SqfLayout.Proofs.TokenReader.Viable

/-! The reader of expressions fails at the first token that no expression has in that place, but for a code
block without an end. -/
namespace SqfLayout.Expression
open TokenReader

section
variable {whole s m m' : List Token} {t : Token}

private theorem exists_filler_sharesFront (hs : Rest whole s) : ∃ x, Filler x ∧ s = x ++ skipLayout s ∧
    ∀ m', SharesFront (skipLayout s) m' → skipLayout (x ++ m') = m' :=
  ⟨_, List.all_eq_true.1 List.all_takeWhile, List.takeWhile_append_dropWhile.symm,
    fun _ hfront => hfront.dropWhile_append hs.skipLayout.ne_nil⟩

private theorem exists_spaces_sharesFront (hs : Rest whole s) : ∃ x, Spaces x ∧ s = x ++ skipSpaces s ∧
    ∀ m', SharesFront (skipSpaces s) m' → skipSpaces (x ++ m') = m' :=
  ⟨_, fun t ht => by simpa using List.all_eq_true.1 List.all_takeWhile t ht,
    List.takeWhile_append_dropWhile.symm,
    fun _ hfront => hfront.dropWhile_append hs.skipSpaces.ne_nil⟩

/-- Whether an expression goes on shows in two tokens. -/
private theorem operator?_eq_none_of_sharesFront (hs : Rest whole s) (h : operator? s = none)
    (hfront : SharesFront s m') :
    operator? m' = none := by
  rw [operator?_eq_none_iff] at h ⊢
  obtain ⟨t, more, rfl⟩ := List.exists_cons_of_ne_nil hs.ne_nil
  rintro (⟨u, others, rfl, hu⟩ | ⟨u, v, others, rfl, hu, hv⟩)
  · obtain ⟨_, heq⟩ := hfront.exists_cons
    obtain ⟨rfl, -⟩ := List.cons.inj heq
    exact h (.inl ⟨u, more, rfl, hu⟩)
  · obtain ⟨_, heq⟩ := hfront.exists_cons
    obtain ⟨rfl, -⟩ := List.cons.inj heq
    obtain ⟨w, more, rfl⟩ := List.exists_cons_of_ne_nil (hs.tail (by simp [hu])).ne_nil
    obtain ⟨_, heq⟩ := hfront
    obtain ⟨-, rfl, -⟩ : u = u ∧ w = v ∧ _ := by simpa using heq
    exact h (.inr ⟨u, w, more, rfl, hu, hv⟩)

private theorem exists_operator_sharesFront (hs : Rest whole s) (h : operator? s = some (t, m)) :
    ∃ gap spaces, Spaces gap ∧ gap.length ≤ 1 ∧ t.kind = .operator ∧ Spaces spaces ∧
      s = gap ++ t :: spaces ++ m ∧
      ∀ m', SharesFront m m' → operator? (gap ++ t :: spaces ++ m') = some (t, m') := by
  obtain ⟨gap, more, hgap, hone, ht, rfl, rfl⟩ := exists_more_of_operator? h
  have hmore : Rest whole more := by
    refine (hs.behind fun g hg => ?_).tail (by simp [ht])
    simp [hgap g hg]
  obtain ⟨spaces, hspaces, hsplit, hskip⟩ := exists_spaces_sharesFront hmore
  refine ⟨gap, spaces, hgap, hone, ht, hspaces, ?_, fun m' hfront => ?_⟩
  · rw [List.append_assoc, List.cons_append, ← hsplit]
  · match gap, hone with
    | [], _ => simp [operator?, ht, hskip m' hfront]
    | [g], _ =>
      have hg : g.kind = .space := hgap g List.mem_cons_self
      simp [operator?, ht, hg, hskip m' hfront]

def Items (items : List Expression) (x : List Token) : Prop :=
  ∃ y r, Derives (.items items) y ∧ r.kind = .rightBracket ∧ x = y ++ [r]

def Array (e : Expression) (x : List Token) : Prop :=
  ∃ items, e = .array items ∧ ∀ l : Token, l.kind = .leftBracket → Derives (.array items) (l :: x)

private def closing : Token := ⟨.rightBracket, [], Position.start⟩

private theorem derives_digit : ∃ e x, Derives (.operand e) x :=
  ⟨_, _, .number (t := ⟨.number, [], Position.start⟩) rfl⟩

private theorem items_last {e : Expression} {x filler : List Token} (hx : Derives (.expression e) x)
    (hfiller : Filler filler) (ht : t.kind = .rightBracket) : Items [e] (x ++ (filler ++ [t])) :=
  ⟨x ++ filler, t, .last hx hfiller, ht, (List.append_assoc x filler [t]).symm⟩

private theorem decides_behindItem {item : Expression} {x : List Token} (hx : Derives (.expression item) x)
    (hm : Rest whole m) (hitems : ∀ s, Rest whole s → s.length < m.length →
      Decides id whole readItemList Items s) :
    Decides id whole (behindItem item) (fun items y => Items items (x ++ y)) m := by
  obtain ⟨filler, hfiller, hsplit, hskip⟩ := exists_filler_sharesFront hm
  have hrest := hm.skipLayout
  generalize skipLayout m = rest at hsplit hskip hrest
  obtain ⟨u, more, rfl⟩ := List.exists_cons_of_ne_nil hrest.ne_nil
  subst hsplit
  by_cases hcomma : u.kind = .comma
  · have hmore := hrest.tail (by simp [hcomma])
    obtain ⟨filler', hfiller', hsplit, hskip'⟩ := exists_filler_sharesFront hmore
    have hshort := length_skipLayout_le more
    have hlater := hmore.skipLayout
    generalize skipLayout more = later at hsplit hskip' hshort hlater
    subst hsplit
    rw [← List.cons_append, ← List.append_assoc]
    refine .behind (r := readItemList >>= fun items => pure (item :: items)) (fun m' hfront => ?_) ?_
    · have hcons : skipLayout (filler ++ u :: filler' ++ m') = u :: (filler' ++ m') := by
        rw [List.append_assoc]
        exact hskip _ (hfront.append (u :: filler'))
      rw [behindItem_of_comma hcons hcomma, hskip' m' hfront]
    · have hnext {items : List Expression} {y : List Token} (hy : Items items y) :
          Items (item :: items) (x ++ (filler ++ u :: filler' ++ (y ++ []))) := by
        obtain ⟨z, r, hz, hr, rfl⟩ := hy
        exact ⟨_, r, .more hx hfiller hcomma hfiller' hz, hr, by simp⟩
      refine (hitems later hlater ?_).bind (fun items y m _ hy hm => decides_pure hm (hnext hy))
        fun items y hy => ⟨_, _, hnext hy⟩
      simp only [List.length_append, List.length_cons] at *
      omega
  · by_cases hclose : u.kind = .rightBracket
    · refine .done (x := filler ++ [u]) (by simp) (items_last hx hfiller hclose)
        (hrest.tail (by simp [hclose])) fun m' hfront => ?_
      rw [List.append_assoc]
      exact behindItem_of_close (hskip (u :: m') (hfront.append [u])) hclose
    · have hfails {more' : List Token} (hfront : SharesFront (u :: more) (u :: more')) :
          behindItem item (filler ++ u :: more') = .error (violationAt .noSeparator (u :: more')) (u :: more') :=
        behindItem_of_other (hskip _ hfront) hcomma hclose
      refine .stuck rfl hrest (hfails (.refl _)) ⟨rfl, rfl⟩
        ⟨[item], [closing], items_last hx hfiller rfl⟩ fun m' hfront => ?_
      obtain ⟨more', rfl⟩ := hfront.exists_cons
      exact ⟨_, _, hfails hfront⟩

/-- The reader of expressions decides on shorter streams. Readers call each other only on less. -/
private def DecidesBelow (whole : List Token) (n : Nat) : Prop :=
  ∀ s, Rest whole s → s.length < n → Decides id whole read (fun e x => Derives (.expression e) x) s

private theorem decides_readItemList {n : Nat} (hread : DecidesBelow whole n) (hs : Rest whole s)
    (hn : s.length < n) : Decides id whole readItemList Items s := by
  induction hk : s.length using Nat.strongRecOn generalizing s with
  | _ k ih =>
    rw [readItemList_eq]
    refine (hread s hs hn).bind (fun item x m hitem hx hm => ?_)
      fun item x hx => ⟨[item], [closing], items_last hx filler_nil rfl⟩
    have hshort := length_of_read hitem
    exact decides_behindItem hx hm fun s' hs' hn' => ih s'.length (by omega) hs' (by omega) rfl

private theorem array_of_items {items : List Expression} {filler x : List Token} (hfiller : Filler filler)
    (hx : Items items x) : Array (.array items) (filler ++ x) := by
  obtain ⟨y, r, hy, hr, rfl⟩ := hx
  refine ⟨items, rfl, fun l hl => ?_⟩
  simpa using Derives.bracketed hl hfiller hy hr

private theorem decides_readItems {n : Nat} (hread : DecidesBelow whole n) (hs : Rest whole s)
    (hn : s.length < n) : Decides id whole readItems Array s := by
  obtain ⟨filler, hfiller, hsplit, hskip⟩ := exists_filler_sharesFront hs
  have hrest := hs.skipLayout
  have hlength := length_skipLayout_le s
  generalize skipLayout s = rest at hsplit hskip hrest hlength
  obtain ⟨u, more, rfl⟩ := List.exists_cons_of_ne_nil hrest.ne_nil
  subst hsplit
  by_cases hclose : u.kind = .rightBracket
  · refine .done (x := filler ++ [u]) (by simp) ⟨[], rfl, fun l hl => .empty hl hfiller hclose⟩
      (hrest.tail (by simp [hclose])) fun m' hfront => ?_
    rw [List.append_assoc]
    exact readItems_of_close (hskip (u :: m') (hfront.append [u])) hclose
  · refine .behind (r := readItemList >>= fun items => pure (.array items)) (fun m' hfront => ?_) ?_
    · obtain ⟨more', rfl⟩ := hfront.exists_cons
      rw [readItems_eq, hskip _ hfront, next_cons, if_neg hclose]
    · have hitems {items : List Expression} {y : List Token} (hy : Items items y) :
          Array (.array items) (filler ++ (y ++ [])) := by
        rw [List.append_nil]
        exact array_of_items hfiller hy
      exact (decides_readItemList hread hrest (by omega)).bind
        (fun items y m _ hy hm => decides_pure hm (hitems hy)) fun items y hy => ⟨_, _, hitems hy⟩

private theorem derives_parens {r : Token} {e : Expression} {before x after : List Token}
    (ht : t.kind = .leftParen) (hbefore : Spaces before) (hx : Derives (.expression e) x)
    (hafter : Spaces after) (hr : r.kind = .rightParen) :
    Derives (.operand e) (t :: before ++ (x ++ (after ++ ([r] ++ [])))) := by
  simpa using Derives.parens ht hbefore hx hafter hr

private theorem decides_parens {n : Nat} (hread : DecidesBelow whole n) (ht : t.kind = .leftParen)
    (hm : Rest whole m) (hn : m.length < n) :
    Decides id whole readOperand (fun e x => Derives (.operand e) x) (t :: m) := by
  obtain ⟨before, hbefore, hsplit, hskip⟩ := exists_spaces_sharesFront hm
  have hrest := hm.skipSpaces
  have hlength := length_skipSpaces_le m
  generalize skipSpaces m = rest at hsplit hskip hrest hlength
  subst hsplit
  refine .behind (x := t :: before) (r := read >>= closed) (fun m' hfront => ?_) ?_
  · rw [List.cons_append, readOperand_paren ht, hskip m' hfront]
  refine (hread rest hrest (by omega)).bind (fun e x m _ hx hm => ?_) fun e x hx =>
    ⟨e, _, derives_parens (r := ⟨.rightParen, [], Position.start⟩) ht hbefore hx spaces_nil rfl⟩
  obtain ⟨after, hafter, hsplit, hskip⟩ := exists_spaces_sharesFront hm
  have hclose := hm.skipSpaces
  generalize skipSpaces m = rest at hsplit hskip hclose
  subst hsplit
  refine .behind (r := need .rightParen >>= fun _ => pure e) (fun m' hfront => ?_) ?_
  · unfold closed
    rw [hskip m' hfront]
  refine ((decisive_expect whole none (by simp)).bind ?_).decides rest hclose
  rintro r _ ⟨hr, rfl⟩
  exact decisive_pure (derives_parens ht hbefore hx hafter hr)

private theorem decides_readOperand {n : Nat} (hread : DecidesBelow whole n) (hs : Rest whole s)
    (hn : s.length ≤ n) : Decides id whole readOperand (fun e x => Derives (.operand e) x) s := by
  induction s with
  | nil => exact absurd rfl hs.ne_nil
  | cons t m ih =>
    have hshort : m.length < n := hn
    have hbehind {kind : Token.Kind} (hkind : t.kind = kind) (hne : kind ≠ .eos) : Rest whole m :=
      hs.tail (by rwa [hkind])
    cases hsign : isSign t with
    | true =>
      obtain ⟨ht, hvalue⟩ := isSign_iff.1 hsign
      have hm := hbehind ht (by simp)
      have hunary {e : Expression} {x : List Token} (hx : Derives (.operand e) x) :
          Derives (.operand (.unary t.value e)) ([t] ++ (x ++ [])) := by
        rw [List.append_nil]
        exact .sign ht hvalue hx
      refine .behind (x := [t]) (fun m' _ => readOperand_sign hsign) ?_
      exact (ih hm (Nat.le_of_lt hshort)).bind (fun e x m _ hx hm => decides_pure hm (hunary hx))
        fun e x hx => ⟨_, _, hunary hx⟩
    | false =>
      by_cases hstart : t.kind ∈ starts
      · simp only [starts, List.mem_cons, List.not_mem_nil, or_false] at hstart
        rcases hstart with ht | ht | ht | ht | ht | ht
        · exact .done (x := [t]) rfl (.number ht) (hbehind ht (by simp)) fun m' _ => readOperand_number ht
        · exact .done (x := [t]) rfl (.string ht) (hbehind ht (by simp)) fun m' _ => readOperand_string ht
        · exact .done (x := [t]) rfl (.command ht) (hbehind ht (by simp)) fun m' _ => readOperand_command ht
        · refine .behind (x := [t]) (fun m' _ => readOperand_bracket ht) ?_
          refine (decides_readItems hread (hbehind ht (by simp)) hshort).mono ?_
          rintro _ x ⟨items, rfl, hx⟩
          exact .array (hx t ht)
        · cases hbody : codeBody 0 m with
          | none => exact .unclosed (by rw [readOperand_brace ht, hbody]) rfl
          | some p =>
            obtain ⟨hbalanced, r, hr, hsplit⟩ := codeBody_eq_some_iff.1 hbody
            refine .done (x := t :: p.1 ++ [r]) (by simpa using hsplit) (.code ht hbalanced hr)
              (rest_codeBody (hbehind ht (by simp)) hbody) fun m' _ => ?_
            exact (readOperand_brace_ok_iff ht).2
              ⟨p.1, codeBody_eq_some_iff.2 ⟨hbalanced, r, hr, by simp⟩, rfl⟩
        · exact decides_parens hread ht (hbehind ht (by simp)) hshort
      · have hfails (m' : List Token) := readOperand_other (m := m') hsign hstart
        obtain ⟨e, x, hx⟩ := derives_digit
        refine .stuck (x := []) rfl hs (hfails m) ⟨rfl, rfl⟩ ⟨e, x, hx⟩ fun m' hfront => ?_
        obtain ⟨more, rfl⟩ := hfront.exists_cons
        exact ⟨_, _, hfails more⟩

-- The left operand grows along the chain, so the grammar of a chain speaks of every stretch that stands for it.
private theorem decides_readChain {n : Nat} (hread : DecidesBelow whole n) (hs : Rest whole s)
    (hn : s.length ≤ n) {left : Expression} : Decides id whole (readChain left)
      (fun e x => ∀ w, Derives (.expression left) w → Derives (.expression e) (w ++ x)) s := by
  induction hk : s.length using Nat.strongRecOn generalizing s left with
  | _ k ih =>
    cases hop : operator? s with
    | none =>
      exact .done (x := []) rfl (fun w hw => by simpa using hw) hs fun m' hfront =>
        readChain_of_none (operator?_eq_none_of_sharesFront hs hop hfront)
    | some p =>
      obtain ⟨t, m⟩ := p
      have hlength := length_of_operator? hop
      have hm := rest_operator? hs hop
      obtain ⟨gap, spaces, hgap, hone, ht, hspaces, rfl, hagree⟩ := exists_operator_sharesFront hs hop
      have hlonger {right : Expression} {x w : List Token} (hx : Derives (.operand right) x)
          (hw : Derives (.expression left) w) :
          Derives (.expression (.binary left t.value right)) (w ++ (gap ++ t :: spaces ++ x)) := by
        simpa using Derives.chain hw hgap hone ht hspaces hx
      refine .behind (fun m' hfront => readChain_of_some (hagree m' hfront)) ?_
      refine (decides_readOperand hread hm (by omega)).bind (fun right x m hright hx hm => ?_)
        fun right x hx => ⟨_, [], fun w hw => by simpa using hlonger hx hw⟩
      have hshort := length_of_readOperand hright
      refine (ih m.length (by omega) hm (by omega) rfl).mono fun e y hy w hw => ?_
      simpa using hy _ (hlonger hx hw)

private theorem decidesBelow (whole : List Token) (n : Nat) : DecidesBelow whole n := by
  induction n with
  | zero => exact fun s _ hn => absurd hn (Nat.not_lt_zero _)
  | succ n ih =>
    intro s hs hn
    rw [read_eq]
    refine (decides_readOperand ih hs (Nat.le_of_lt_succ hn)).bind (fun left x m hleft hx hm => ?_)
      fun left x hx => ⟨left, [], by simpa using Derives.single hx⟩
    have hshort := length_of_readOperand hleft
    exact (decides_readChain ih hm (by omega)).mono fun e y hy => hy x (.single hx)

end

theorem decisive_read (whole : List Token) :
    Decisive id whole read fun e x => Derives (.expression e) x := by
  obtain ⟨e, x, hx⟩ := derives_digit
  exact ⟨⟨e, x, .single hx⟩, fun s hs => decidesBelow whole (s.length + 1) s hs (Nat.lt_succ_self _)⟩

theorem decisive_readArray (whole : List Token) :
    Decisive id whole readArray fun e x => ∃ items, e = .array items ∧ Derives (.array items) x := by
  refine (decisive_expect whole none (by simp)).bind ?_
  rintro l _ ⟨hl, rfl⟩
  have hempty : Array (.array []) [closing] := ⟨[], rfl, fun l hl => .empty hl filler_nil rfl⟩
  have hitems : Decisive id whole readItems Array := ⟨⟨_, _, hempty⟩, fun s hs =>
    decides_readItems (decidesBelow whole (s.length + 1)) hs (Nat.lt_succ_self _)⟩
  refine hitems.mono ?_
  rintro _ x ⟨items, rfl, hx⟩
  exact ⟨items, rfl, hx l hl⟩

end SqfLayout.Expression
