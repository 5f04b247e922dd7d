import SqfLayout.Proofs.Expression.Programs
import SqfLayout.Proofs.Returns.TokenReader

/-! Expressions of a source that has a carriage return before every line feed. -/
namespace SqfLayout.Expression
open TokenReader
open Token (Alike)

mutual

/-- The same expression where lines end in two characters: strings show it, and code blocks. -/
def withReturns : Expression → Expression
  | .number text => .number text
  | .string text => .string text.withReturns
  | .command name => .command name
  | .array items => .array (itemsWithReturns items)
  | .code body => .code (body.map Token.withReturns)
  | .unary operator operand => .unary operator operand.withReturns
  | .binary left operator right => .binary left.withReturns operator right.withReturns

def itemsWithReturns : List Expression → List Expression
  | [] => []
  | e :: rest => e.withReturns :: itemsWithReturns rest

end

/-- An expression, and the same one where lines end in two characters. -/
def Alike (e e' : Expression) : Prop := e' = e.withReturns

def ItemsAlike (es es' : List Expression) : Prop := es' = itemsWithReturns es

abbrev Agrees := Agree Violation.Same Expression.Alike

variable {s s' m m' : List Token} {t t' : Token}

theorem skipSpaces_alike (h : Streams s s') : Streams (skipSpaces s) (skipSpaces s') :=
  dropWhile_alike (p := fun kind => kind = .space) h

theorem skipLayout_alike (h : Streams s s') : Streams (skipLayout s) (skipLayout s') :=
  dropWhile_alike (p := fun kind => kind = .space || kind.isLayout) h

theorem isSign_alike (h : t.Alike t') : isSign t' = isSign t := by
  unfold isSign
  rw [h.kind_eq]
  by_cases ht : t.kind = .operator
  · rw [h.value_eq (by simp [ht, Token.lineKinds])]
  · simp [ht]

theorem operator?_alike (h : Streams s s') :
    Option.Rel (fun x y => x.1.kind = .operator ∧ x.1.Alike y.1 ∧ Streams x.2 y.2)
      (operator? s) (operator? s') := by
  cases h with
  | nil => exact .none
  | @cons t t' s s' ht hs =>
    unfold operator?
    simp only [ht.kind_eq]
    split
    · rename_i hkind
      exact .some ⟨hkind, ht, skipSpaces_alike hs⟩
    · split
      · cases hs with
        | nil => exact .none
        | @cons u u' s s' hu hs =>
          simp only [hu.kind_eq]
          split
          · rename_i hkind
            exact .some ⟨hkind, hu, skipSpaces_alike hs⟩
          · exact .none
      · exact .none

theorem codeBody_alike (h : Streams s s') (depth : Nat) :
    Option.Rel (fun x y => y.1 = x.1.map Token.withReturns ∧ Streams x.2 y.2)
      (codeBody depth s) (codeBody depth s') := by
  induction h generalizing depth with
  | nil => exact .none
  | @cons t t' s s' ht hs ih =>
    have hmore (depth : Nat) : Option.Rel
        (fun x y => y.1 = x.1.map Token.withReturns ∧ Streams x.2 y.2)
        ((codeBody depth s).map fun r => (t :: r.1, r.2))
        ((codeBody depth s').map fun r => (t' :: r.1, r.2)) := by
      have hrest := ih depth
      revert hrest
      generalize codeBody depth s = x
      generalize codeBody depth s' = y
      intro hrest
      cases hrest with
      | none => exact .none
      | some h => exact .some ⟨by simp [ht.2, h.1], h.2⟩
    cases depth with
    | zero =>
      simp only [codeBody, ht.kind_eq]
      split
      · exact .none
      · split
        · exact hmore 1
        · split
          · exact .some ⟨rfl, hs⟩
          · exact hmore 0
    | succ depth =>
      simp only [codeBody, ht.kind_eq]
      split
      · exact .none
      · split
        · exact hmore (depth + 2)
        · split
          · exact hmore depth
          · exact hmore (depth + 1)

/-- Readers agree on shorter streams. They call each other only on less. -/
private def AgreeBelow (n : Nat) : Prop :=
  ∀ s s', Streams s s' → s.length < n → Agrees (read s) (read s')

private theorem agree_readItemList {n : Nat} (hread : AgreeBelow n) (hs : Streams s s')
    (hn : s.length < n) : Agree Violation.Same ItemsAlike (readItemList s) (readItemList s') := by
  induction hk : s.length using Nat.strongRecOn generalizing s s' with
  | _ k ih =>
    conv => arg 3; rw [readItemList_eq]
    conv => arg 4; rw [readItemList_eq]
    refine (hread s s' hs hn).bind ?_
    rintro item _ m m' hm rfl hm'
    have hskip := skipLayout_alike hm'
    have hshort : (skipLayout (after (skipLayout m))).length < k := by
      have := length_of_read hm
      have := length_skipLayout_le m
      have := length_after_le (skipLayout m)
      have := length_skipLayout_le (after (skipLayout m))
      omega
    unfold behindItem
    rw [(next_alike hskip).kind_eq]
    split
    · refine (ih _ hshort (skipLayout_alike (after_alike hskip)) (by omega) rfl).bind ?_
      rintro items _ m m' _ rfl hm
      exact .ok rfl hm
    · split
      · exact .ok rfl (after_alike hskip)
      · exact simulates_reject .noSeparator _ _ hskip

private theorem agree_readItems {n : Nat} (hread : AgreeBelow n) (hs : Streams s s')
    (hn : s.length < n) : Agrees (readItems s) (readItems s') := by
  have hskip := skipLayout_alike hs
  have hlength := length_skipLayout_le s
  rw [readItems_eq, readItems_eq, (next_alike hskip).kind_eq]
  split
  · exact .ok rfl (after_alike hskip)
  · refine (agree_readItemList hread hskip (by omega)).bind ?_
    rintro items _ m m' _ rfl hm
    exact .ok rfl hm

private theorem agree_readOperand {n : Nat} (hread : AgreeBelow n) (hs : Streams s s')
    (hn : s.length ≤ n) : Agrees (readOperand s) (readOperand s') := by
  induction hs with
  | nil =>
    rw [readOperand_nil]
    exact .error ⟨rfl, rfl⟩
  | @cons t t' s s' ht hs ih =>
    have hshort : s.length < n := hn
    have hsign' := isSign_alike ht
    cases hsign : isSign t with
    | true =>
      have hvalue : t'.value = t.value := by
        have := (isSign_iff.1 hsign).1
        exact ht.value_eq (by simp [this, Token.lineKinds])
      rw [readOperand_sign hsign, readOperand_sign (hsign'.trans hsign), hvalue]
      refine (ih (Nat.le_of_lt hshort)).bind ?_
      rintro operand _ m m' _ rfl hm
      exact .ok rfl hm
    | false =>
      by_cases hstart : t.kind ∈ starts
      · simp only [starts, List.mem_cons, List.not_mem_nil, or_false] at hstart
        rcases hstart with hkind | hkind | hkind | hkind | hkind | hkind
        · rw [readOperand_number hkind, readOperand_number (ht.kind_eq.trans hkind),
            ht.value_eq (by simp [hkind, Token.lineKinds])]
          exact .ok rfl hs
        · rw [readOperand_string hkind, readOperand_string (ht.kind_eq.trans hkind),
            ht.value_eq_withReturns (by simp [hkind])]
          exact .ok rfl hs
        · rw [readOperand_command hkind, readOperand_command (ht.kind_eq.trans hkind),
            ht.value_eq (by simp [hkind, Token.lineKinds])]
          exact .ok rfl hs
        · rw [readOperand_bracket hkind, readOperand_bracket (ht.kind_eq.trans hkind)]
          exact agree_readItems hread hs hshort
        · rw [readOperand_brace hkind, readOperand_brace (ht.kind_eq.trans hkind)]
          have hbody := codeBody_alike hs 0
          revert hbody
          generalize codeBody 0 s = x
          generalize codeBody 0 s' = y
          intro hbody
          cases hbody with
          | none => exact .error ⟨rfl, ht.position_eq⟩
          | some h => exact .ok (congrArg Expression.code h.1) h.2
        · rw [readOperand_paren hkind, readOperand_paren (ht.kind_eq.trans hkind)]
          have hlength := length_skipSpaces_le s
          refine (hread _ _ (skipSpaces_alike hs) (by omega)).bind ?_
          rintro inner _ m m' _ rfl hm
          refine (simulates_expect .rightParen none _ _ (skipSpaces_alike hm)).bind ?_
          intro _ _ m m' _ _ hm
          exact .ok rfl hm
      · rw [readOperand_other hsign hstart,
          readOperand_other (hsign'.trans hsign) (by rwa [ht.kind_eq]), ht.kind_eq]
        exact .error (violationAt_same (.cons ht hs) rfl)

-- The left operand grows along the chain, so the induction is on what remains behind it.
private theorem agree_readChain {n : Nat} (hread : AgreeBelow n) (hs : Streams s s')
    (hn : s.length ≤ n) {left : Expression} :
    Agrees (readChain left s) (readChain left.withReturns s') := by
  induction hk : s.length using Nat.strongRecOn generalizing s s' left with
  | _ k ih =>
    have hoperator := operator?_alike hs
    cases hop : operator? s with
    | none =>
      cases hop' : operator? s' with
      | none =>
        rw [readChain_of_none hop, readChain_of_none hop']
        exact .ok rfl hs
      | some =>
        rw [hop, hop'] at hoperator
        cases hoperator
    | some x =>
      cases hop' : operator? s' with
      | none =>
        rw [hop, hop'] at hoperator
        cases hoperator
      | some y =>
        rw [hop, hop'] at hoperator
        cases hoperator with
        | some h =>
          obtain ⟨hkind, ht, hm⟩ := h
          have hlength := length_of_operator? hop
          rw [readChain_of_some hop, readChain_of_some hop',
            ht.value_eq (by simp [hkind, Token.lineKinds])]
          refine (agree_readOperand hread hm (by omega)).bind ?_
          rintro right _ m m' hright rfl hm'
          have hshort := length_of_readOperand hright
          exact ih m.length (by omega) hm' (by omega) rfl

private theorem agreeBelow (n : Nat) : AgreeBelow n := by
  induction n with
  | zero => exact fun s s' _ hn => absurd hn (Nat.not_lt_zero _)
  | succ n ih =>
    intro s s' hs hn
    rw [read_eq]
    refine (agree_readOperand ih hs (Nat.le_of_lt_succ hn)).bind ?_
    rintro left _ m m' hm rfl hm'
    have := length_of_readOperand hm
    exact agree_readChain ih hm' (by omega)

theorem simulates_read : Simulates Violation.Same Expression.Alike read read :=
  fun s s' hs => agreeBelow (s.length + 1) s s' hs (Nat.lt_succ_self _)

theorem simulates_readArray : Simulates Violation.Same Expression.Alike readArray readArray := by
  refine (simulates_expect .leftBracket none).bind ?_
  intro _ _ _ s s' hs
  exact agree_readItems (agreeBelow (s.length + 1)) hs (Nat.lt_succ_self _)

end SqfLayout.Expression
