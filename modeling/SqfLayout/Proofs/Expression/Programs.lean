import SqfLayout.Proofs.Expression.Grammar
import SqfLayout.Proofs.TokenReader

/-! The readers of expressions as programs that call each other, whether they succeed or fail. -/
namespace SqfLayout.Expression
open TokenReader

def readOperand : TokenReader Expression := fun s => (operandFrom s).result

def readChain (left : Expression) : TokenReader Expression := fun s => (chainFrom left s).result

def readItemList : TokenReader (List Expression) := fun s => (itemsFrom s).result

private theorem result_map {α β : Type} {m n : Nat} {x : TokenReader α} {s : List Token} {r : Reading α m}
    (hx : x s = r.result) (f : α → β) (h : m ≤ n) :
    (r.map f h).result = (x >>= fun a => pure (f a)) s := by
  rw [bind_apply, hx]
  cases r <;> rfl

private theorem result_map_id {α : Type} {m n : Nat} {h : m ≤ n} (r : Reading α m) :
    (r.map id h).result = r.result := by
  cases r <;> rfl

section
variable {m : List Token} {t : Token}

theorem read_eq : read = readOperand >>= readChain := by
  funext s
  rw [bind_apply]
  unfold read readOperand
  rw [readFrom]
  cases operandFrom s with
  | failed => rfl
  | done => exact result_map_id _

theorem readChain_of_none {left : Expression} {s : List Token} (h : operator? s = none) :
    readChain left s = .ok left s := by
  unfold readChain
  rw [chainFrom]
  split
  · rfl
  · rename_i ht; rw [h] at ht; cases ht

theorem readChain_of_some {left : Expression} {s : List Token} (h : operator? s = some (t, m)) :
    readChain left s = (readOperand >>= fun right => readChain (.binary left t.value right)) m := by
  rw [bind_apply]
  unfold readChain readOperand
  rw [chainFrom]
  split
  · rename_i hs
    rw [h] at hs
    cases hs
  · rename_i hs
    rw [h] at hs
    cases hs
    cases operandFrom m with
    | failed => rfl
    | done => exact result_map_id _

theorem isSign_iff : isSign t = true ↔
    t.kind = .operator ∧ (t.value = ['-'] ∨ t.value = ['+'] ∨ t.value = ['!']) := by
  simp [isSign, or_assoc]

private theorem isSign_eq_false (h : t.kind ≠ .operator) : isSign t = false := by
  simp [isSign, h]

theorem readOperand_nil : readOperand [] = .error (violationAt (.noExpression .eos) []) [] := by
  unfold readOperand
  rw [operandFrom]
  rfl

theorem readOperand_sign (ht : isSign t = true) :
    readOperand (t :: m) = (readOperand >>= fun e => pure (.unary t.value e)) m := by
  show (operandFrom (t :: m)).result = _
  rw [operandFrom, if_pos ht]
  exact result_map rfl _ _

theorem readOperand_number (ht : t.kind = .number) :
    readOperand (t :: m) = .ok (.number t.value) m := by
  unfold readOperand
  rw [operandFrom]
  simp [isSign, ht, Reading.result]

theorem readOperand_string (ht : t.kind = .string) :
    readOperand (t :: m) = .ok (.string t.value) m := by
  unfold readOperand
  rw [operandFrom]
  simp [isSign, ht, Reading.result]

theorem readOperand_command (ht : t.kind = .command) :
    readOperand (t :: m) = .ok (.command t.value) m := by
  unfold readOperand
  rw [operandFrom]
  simp [isSign, ht, Reading.result]

theorem readOperand_bracket (ht : t.kind = .leftBracket) :
    readOperand (t :: m) = readItems m := by
  unfold readOperand readItems
  rw [operandFrom]
  simp [isSign, ht]

theorem readOperand_brace (ht : t.kind = .leftBrace) : readOperand (t :: m) =
    match codeBody 0 m with
    | some (body, rest) => .ok (.code body) rest
    | none => .error ⟨.unclosedCode, t.position⟩ (m.dropWhile (·.kind ≠ .eos)) := by
  have hsign : isSign t = false := isSign_eq_false (by simp [ht])
  unfold readOperand
  rw [operandFrom]
  simp only [hsign, ht, Bool.false_eq_true, if_false, result_map_id]
  unfold readCode
  split
  · rename_i body rest hbody
    show EStateM.Result.ok (Expression.code body) rest = _
    rw [hbody]
  · rename_i hbody
    show EStateM.Result.error _ _ = _
    rw [hbody]

private theorem need_cons {kind : Token.Kind} (hkind : kind ≠ .eos) : need kind (t :: m) =
    if t.kind = kind then .ok t m
    else .error (violationAt (.mismatch kind t none) (t :: m)) (t :: m) := by
  show (if t.kind = kind then take (t :: m) else _) = _
  split
  · rename_i ht
    unfold take
    rw [next_cons, after_cons (by rwa [ht])]
  · rfl

/-- The closing parenthesis behind an expression. -/
def closed (inner : Expression) : TokenReader Expression :=
  fun m => (need .rightParen >>= fun _ => pure inner) (skipSpaces m)

theorem readOperand_paren (ht : t.kind = .leftParen) :
    readOperand (t :: m) = (read >>= closed) (skipSpaces m) := by
  have hsign : isSign t = false := isSign_eq_false (by simp [ht])
  rw [bind_apply]
  unfold readOperand read
  rw [operandFrom]
  simp only [hsign, ht, Bool.false_eq_true, if_false]
  cases readFrom (skipSpaces m) with
  | failed => rfl
  | done inner m' _ =>
    show _ = (need .rightParen >>= fun _ => pure inner) (skipSpaces m')
    rw [bind_apply]
    dsimp only
    split
    · rename_i hs
      show EStateM.Result.error _ _ = _
      rw [hs]
      rfl
    · rename_i u more hs
      split
      · rename_i hu
        show EStateM.Result.ok inner more = _
        rw [hs, need_cons (by decide), if_pos hu]
        rfl
      · rename_i hu
        show EStateM.Result.error _ _ = _
        rw [hs, need_cons (by decide), if_neg hu]

theorem readOperand_other (hsign : isSign t = false) (ht : t.kind ∉ starts) : readOperand (t :: m) =
    .error (violationAt (.noExpression t.kind) (t :: m)) (t :: m) := by
  unfold readOperand
  rw [operandFrom, hsign, if_neg Bool.false_ne_true]
  simp only [starts, List.mem_cons, List.not_mem_nil, or_false, not_or] at ht
  split
  any_goals rename_i hk; simp [hk] at ht
  rfl

theorem readItemList_nil : readItemList [] = .error (violationAt (.noExpression .eos) []) [] := by
  unfold readItemList
  rw [itemsFrom, readFrom, operandFrom]
  rfl

private theorem arrayFrom_result (s : List Token) : (arrayFrom s).result =
    if (next (skipLayout s)).kind = .rightBracket then .ok [] (after (skipLayout s))
    else readItemList (skipLayout s) := by
  rw [arrayFrom]
  split
  · rename_i hs
    show EStateM.Result.error _ _ = _
    rw [hs, readItemList_nil]
    rfl
  · rename_i t m hs
    -- The proof that fewer tokens remain speaks of `skipLayout s`, so only the right side is rewritten.
    conv => rhs; rw [hs]
    show Reading.result (if t.kind = _ then _ else _) = if t.kind = _ then _ else _
    split
    · rename_i ht
      rw [after_cons (by simp [ht])]
      rfl
    · exact result_map_id _

theorem readItems_eq (s : List Token) : readItems s =
    if (next (skipLayout s)).kind = .rightBracket then .ok (.array []) (after (skipLayout s))
    else (readItemList >>= fun items => pure (.array items)) (skipLayout s) := by
  unfold readItems
  by_cases hclose : (next (skipLayout s)).kind = .rightBracket
  · rw [if_pos hclose]
    exact result_map (x := pure []) (by rw [arrayFrom_result, if_pos hclose]; rfl) _ _
  · rw [if_neg hclose]
    exact result_map (by rw [arrayFrom_result, if_neg hclose]) _ _

/-- What stands behind an item: a separator and further items, or the closing bracket. -/
def behindItem (item : Expression) : TokenReader (List Expression) := fun m =>
  if (next (skipLayout m)).kind = .comma then
    (readItemList >>= fun items => pure (item :: items)) (skipLayout (after (skipLayout m)))
  else if (next (skipLayout m)).kind = .rightBracket then .ok [item] (after (skipLayout m))
  else reject .noSeparator (skipLayout m)

theorem behindItem_of_comma {item : Expression} {s : List Token} (hs : skipLayout s = t :: m)
    (ht : t.kind = .comma) : behindItem item s =
      (readItemList >>= fun items => pure (item :: items)) (skipLayout m) := by
  unfold behindItem
  rw [hs, next_cons, if_pos ht, after_cons (by simp [ht])]

theorem behindItem_of_close {item : Expression} {s : List Token} (hs : skipLayout s = t :: m)
    (ht : t.kind = .rightBracket) : behindItem item s = .ok [item] m := by
  unfold behindItem
  rw [hs, next_cons, if_neg (by simp [ht]), if_pos ht, after_cons (by simp [ht])]

theorem behindItem_of_other {item : Expression} {s : List Token} (hs : skipLayout s = t :: m)
    (hcomma : t.kind ≠ .comma) (hclose : t.kind ≠ .rightBracket) :
    behindItem item s = .error (violationAt .noSeparator (t :: m)) (t :: m) := by
  unfold behindItem
  rw [hs, next_cons, if_neg hcomma, if_neg hclose]
  rfl

theorem readItemList_eq : readItemList = read >>= behindItem := by
  funext s
  rw [bind_apply]
  unfold read
  conv => lhs; unfold readItemList
  rw [itemsFrom]
  cases readFrom s with
  | failed => rfl
  | done item m shorter =>
    show _ = behindItem item m
    unfold behindItem
    rw [bind_apply]
    dsimp only
    split
    · rename_i hs
      show EStateM.Result.error _ _ = _
      rw [hs]
      rfl
    · rename_i t m' hs
      conv => rhs; rw [hs]
      show Reading.result (if t.kind = _ then _ else _) = if t.kind = _ then _ else _
      split
      · rename_i ht
        rw [after_cons (by simp [ht])]
        exact result_map rfl _ _
      · show Reading.result (if t.kind = _ then _ else _) = if t.kind = _ then _ else _
        split
        · rename_i ht
          rw [after_cons (by simp [ht])]
          rfl
        · rfl

theorem length_of_readOperand {s : List Token} {e : Expression} (h : readOperand s = .ok e m) :
    m.length < s.length := by
  unfold readOperand at h
  cases ho : operandFrom s with
  | failed => rw [ho] at h; cases h
  | done _ _ shorter =>
    rw [ho] at h
    cases h
    exact shorter

theorem length_of_read {s : List Token} {e : Expression} (h : read s = .ok e m) : m.length < s.length := by
  unfold read at h
  cases ho : readFrom s with
  | failed => rw [ho] at h; cases h
  | done _ _ shorter =>
    rw [ho] at h
    cases h
    exact shorter

private theorem length_of_readItems {s : List Token} {e : Expression} (h : readItems s = .ok e m) :
    m.length ≤ s.length := by
  unfold readItems at h
  cases ho : arrayFrom s with
  | failed => rw [ho] at h; cases h
  | done _ _ shorter =>
    rw [ho] at h
    cases h
    exact Nat.le_of_lt_succ shorter

theorem length_of_readArray {s : List Token} {e : Expression} (h : readArray s = .ok e m) :
    m.length < s.length := by
  obtain ⟨l, behind, hopen, hitems⟩ := bind_ok_iff.1 h
  obtain ⟨rfl, -⟩ := (need_ok_iff (by simp)).1 hopen
  exact Nat.lt_succ_of_le (length_of_readItems hitems)

end

end SqfLayout.Expression
