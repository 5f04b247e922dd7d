import SqfLayout.Proofs.Expression.Programs
import SqfLayout.Proofs.TokenReader.Blame

/-! Reading an expression keeps the end of the tokens, and a failure is located at one of them. -/
namespace SqfLayout.Expression
open TokenReader

section
variable {whole s m : List Token} {t : Token}

theorem rest_operator? (hs : Rest whole s) (h : operator? s = some (t, m)) : Rest whole m := by
  unfold operator? at h
  split at h
  · cases h
  · rename_i u rest
    split at h
    · rename_i hkind
      cases h
      exact (hs.tail (by simp [hkind])).skipSpaces
    · split at h
      · rename_i hspace
        have hrest := hs.tail (by simp [hspace])
        split at h
        · cases h
        · split at h
          · rename_i hkind
            cases h
            exact (hrest.tail (by simp [hkind])).skipSpaces
          · cases h
      · cases h

theorem rest_codeBody {depth : Nat} {body : List Token} (hs : Rest whole s)
    (h : codeBody depth s = some (body, m)) : Rest whole m := by
  fun_induction codeBody depth s generalizing body with
  | case1 => cases h
  | case2 => cases h
  | case3 depth t rest heos _ ih =>
    obtain ⟨⟨body', m'⟩, hr, he⟩ := Option.map_eq_some_iff.1 h
    cases he
    exact ih (hs.tail heos) hr
  | case4 t rest heos =>
    cases h
    exact hs.tail heos
  | case5 t rest heos _ _ depth ih =>
    obtain ⟨⟨body', m'⟩, hr, he⟩ := Option.map_eq_some_iff.1 h
    cases he
    exact ih (hs.tail heos) hr
  | case6 depth t rest heos _ _ ih =>
    obtain ⟨⟨body', m'⟩, hr, he⟩ := Option.map_eq_some_iff.1 h
    cases he
    exact ih (hs.tail heos) hr

abbrev KeepsEnd {α : Type} (whole : List Token) : EStateM.Result Violation (List Token) α → Prop :=
  Keeps whole (AtToken whole) fun _ => True

/-- Readers keep the end on shorter streams. They call each other only on less. -/
private def KeepsBelow (whole : List Token) (n : Nat) : Prop :=
  ∀ s, Rest whole s → s.length < n → KeepsEnd whole (read s)

private theorem keeps_readItemList {n : Nat} (hread : KeepsBelow whole n) (hs : Rest whole s)
    (hn : s.length < n) : KeepsEnd whole (readItemList s) := by
  induction hk : s.length using Nat.strongRecOn generalizing s with
  | _ k ih =>
    rw [readItemList_eq]
    refine (hread s hs hn).bind fun item m hm _ hrest => ?_
    have hskip := hrest.skipLayout
    have hshort : (skipLayout (after (skipLayout m))).length < k := by
      have := length_of_read hm
      have := length_skipLayout_le m
      have := length_after_le (skipLayout m)
      have := length_skipLayout_le (after (skipLayout m))
      omega
    unfold behindItem
    split
    · refine (ih _ hshort hskip.after.skipLayout (by omega) rfl).bind fun items m _ _ hm => ?_
      exact .ok trivial hm
    · split
      · exact .ok trivial hskip.after
      · exact careful_reject .noSeparator _ hskip

private theorem keeps_readItems {n : Nat} (hread : KeepsBelow whole n) (hs : Rest whole s)
    (hn : s.length < n) : KeepsEnd whole (readItems s) := by
  have hlength := length_skipLayout_le s
  rw [readItems_eq]
  split
  · exact .ok trivial hs.skipLayout.after
  · refine (keeps_readItemList hread hs.skipLayout (by omega)).bind fun items m _ _ hm => ?_
    exact .ok trivial hm

private theorem keeps_readOperand {n : Nat} (hread : KeepsBelow whole n) (hs : Rest whole s)
    (hn : s.length ≤ n) : KeepsEnd whole (readOperand s) := by
  induction s with
  | nil => exact absurd rfl hs.ne_nil
  | cons t s ih =>
    have hshort : s.length < n := hn
    have hbehind {kind : Token.Kind} (hkind : t.kind = kind) (hne : kind ≠ .eos) : Rest whole s :=
      hs.tail (by rwa [hkind])
    cases hsign : isSign t with
    | true =>
      rw [readOperand_sign hsign]
      refine (ih (hbehind (isSign_iff.1 hsign).1 (by simp)) (Nat.le_of_lt hshort)).bind ?_
      exact fun operand m _ _ hm => .ok trivial hm
    | false =>
      by_cases hstart : t.kind ∈ starts
      · simp only [starts, List.mem_cons, List.not_mem_nil, or_false] at hstart
        rcases hstart with hkind | hkind | hkind | hkind | hkind | hkind
        · rw [readOperand_number hkind]
          exact .ok trivial (hbehind hkind (by simp))
        · rw [readOperand_string hkind]
          exact .ok trivial (hbehind hkind (by simp))
        · rw [readOperand_command hkind]
          exact .ok trivial (hbehind hkind (by simp))
        · rw [readOperand_bracket hkind]
          exact keeps_readItems hread (hbehind hkind (by simp)) hshort
        · rw [readOperand_brace hkind]
          split
          · rename_i hbody
            exact .ok trivial (rest_codeBody (hbehind hkind (by simp)) hbody)
          · exact .error ⟨t, hs.next_mem, rfl⟩ ((hbehind hkind (by simp)).dropWhile (by simp))
        · rw [readOperand_paren hkind]
          have hlength := length_skipSpaces_le s
          refine (hread _ (hbehind hkind (by simp)).skipSpaces (by omega)).bind fun inner m _ _ hm => ?_
          refine (careful_expect .rightParen none _ hm.skipSpaces).bind fun _ m _ _ hm => ?_
          exact .ok trivial hm
      · rw [readOperand_other hsign hstart]
        exact .error (hs.atToken _) hs

-- The left operand grows along the chain, so the induction is on what remains behind it.
private theorem keeps_readChain {n : Nat} (hread : KeepsBelow whole n) (hs : Rest whole s)
    (hn : s.length ≤ n) {left : Expression} : KeepsEnd whole (readChain left s) := by
  induction hk : s.length using Nat.strongRecOn generalizing s left with
  | _ k ih =>
    cases hop : operator? s with
    | none =>
      rw [readChain_of_none hop]
      exact .ok trivial hs
    | some x =>
      obtain ⟨t, m⟩ := x
      have hlength := length_of_operator? hop
      rw [readChain_of_some hop]
      refine (keeps_readOperand hread (rest_operator? hs hop) (by omega)).bind fun right m hright _ hm => ?_
      have hshort := length_of_readOperand hright
      exact ih m.length (by omega) hm (by omega) rfl

private theorem keepsBelow (whole : List Token) (n : Nat) : KeepsBelow whole n := by
  induction n with
  | zero => exact fun s _ hn => absurd hn (Nat.not_lt_zero _)
  | succ n ih =>
    intro s hs hn
    rw [read_eq]
    refine (keeps_readOperand ih hs (Nat.le_of_lt_succ hn)).bind fun left m hm _ hrest => ?_
    have := length_of_readOperand hm
    exact keeps_readChain ih hrest (by omega)

end

theorem careful_read (whole : List Token) :
    Careful whole (AtToken whole) (fun _ => True) read :=
  fun s hs => keepsBelow whole (s.length + 1) s hs (Nat.lt_succ_self _)

theorem careful_readArray (whole : List Token) :
    Careful whole (AtToken whole) (fun _ => True) readArray :=
  (careful_expect .leftBracket none).bind fun _ _ s hs =>
    keeps_readItems (keepsBelow whole (s.length + 1)) hs (Nat.lt_succ_self _)

end SqfLayout.Expression
