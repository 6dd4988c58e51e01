import MiniatureMachine.Proofs.Assembly.OperandText
import MiniatureMachine.Proofs.Assembly.Roundtrip
import MiniatureMachine.Proofs.Isa.Fields

/-!
Contract: the encoding of an operation with its operand text, field by field.

Owns:
- the value of a token in a slot, and the tokens that are valid for slots;
- the first token that is refused;
- what becomes of an operation with its tokens, as a word or as an error.

The assembler puts digits into the spaced template of the operation. What is stated here is
the word that the digits amount to: the pattern of the operation, and the values of the tokens
in their fields.
-/

namespace MiniatureMachine

def Operation.operandSlots (operation : Operation) : List Slot :=
  operation.shape.filter Slot.takesOperand

private theorem Operation.operandCount_eq (operation : Operation) :
    operation.operandCount = operation.operandSlots.length :=
  List.countP_eq_length_filter

namespace Encoding

/-! ## Values of tokens -/

/-- The value of a token that is valid for a slot. -/
inductive HasValue : Slot → String → Int → Prop
  | register {token : String} {number : Nat} (names : NamesRegister token.toList number) :
      HasValue .register token number
  | number {slot : Slot} {token : String} {value : Int} {range : Int × Int}
      (ranged : slot.range? = some range) (shows : ShowsNumber token.toList value)
      (inRange : range.1 ≤ value ∧ value ≤ range.2) :
      HasValue slot token value

/-- Every token is valid for its slot, and there is one token for each slot. -/
inductive HaveValues : List Slot → List String → List Int → Prop
  | nil : HaveValues [] [] []
  | cons {slot : Slot} {token : String} {value : Int} {slots : List Slot} {tokens : List String}
      {values : List Int} (first : HasValue slot token value)
      (others : HaveValues slots tokens values) :
      HaveValues (slot :: slots) (token :: tokens) (value :: values)

/-- The first token from the left that is not valid for its slot, with its error. -/
inductive FirstRefused : List Slot → List String → LineError → Prop
  | here {slot : Slot} {token : String} {error : LineError} {slots : List Slot}
      {tokens : List String} (refused : Outcome slot token (.error error)) :
      FirstRefused (slot :: slots) (token :: tokens) error
  | later {slot : Slot} {token : String} {value : Int} {error : LineError} {slots : List Slot}
      {tokens : List String} (valid : HasValue slot token value)
      (others : FirstRefused slots tokens error) :
      FirstRefused (slot :: slots) (token :: tokens) error

section Values

variable {slot : Slot} {slots : List Slot} {token digits : String} {tokens : List String}
  {value other : Int} {values : List Int} {error : LineError}

theorem HasValue.unique (first : HasValue slot token value) (second : HasValue slot token other) :
    value = other := by
  cases first with
  | register names =>
      cases second with
      | register names' => rw [names.unique names']
      | number ranged => cases ranged
  | number ranged shows =>
      cases second with
      | register => cases ranged
      | number _ shows' => exact shows.unique shows'

theorem HaveValues.unique {others : List Int} (first : HaveValues slots tokens values)
    (second : HaveValues slots tokens others) : values = others := by
  induction first generalizing others with
  | nil =>
      cases second
      rfl
  | cons valid later inductionHypothesis =>
      cases second with
      | cons valid' later' => rw [valid.unique valid', inductionHypothesis later']

theorem HaveValues.length_eq (valid : HaveValues slots tokens values) :
    tokens.length = slots.length := by
  induction valid with
  | nil => rfl
  | cons first others inductionHypothesis =>
      rw [List.length_cons, List.length_cons, inductionHypothesis]

private theorem exists_haveValues_iff :
    (∃ values, HaveValues slots tokens values) ↔
      tokens.length = slots.length ∧
        ∀ entry ∈ slots.zip tokens, ∃ value, HasValue entry.1 entry.2 value := by
  constructor
  · rintro ⟨values, valid⟩
    refine ⟨valid.length_eq, ?_⟩
    induction valid with
    | nil => simp
    | cons first others inductionHypothesis =>
        rw [List.zip_cons_cons, List.forall_mem_cons]
        exact ⟨⟨_, first⟩, inductionHypothesis⟩
  · rintro ⟨counted, each⟩
    induction slots generalizing tokens with
    | nil =>
        obtain rfl := List.eq_nil_of_length_eq_zero counted
        exact ⟨[], .nil⟩
    | cons slot slots inductionHypothesis =>
        cases tokens with
        | nil => cases counted
        | cons token tokens =>
            rw [List.zip_cons_cons, List.forall_mem_cons] at each
            obtain ⟨⟨value, first⟩, others⟩ := each
            obtain ⟨values, valid⟩ := inductionHypothesis (Nat.succ.inj counted) others
            exact ⟨value :: values, .cons first valid⟩

/-- The empty token is valid for no slot. -/
theorem HasValue.ne_empty (valid : HasValue slot token value) : token ≠ "" := by
  rintro rfl
  cases valid with
  | register names =>
      obtain ⟨letter, -, shown, -⟩ := names
      cases shown
  | number _ shows =>
      have formed := isRegisterOrNumber_of_showsNumber shows
      cases formed

private theorem HaveValues.empty_not_mem (valid : HaveValues slots tokens values) :
    "" ∉ tokens := by
  induction valid with
  | nil => exact List.not_mem_nil
  | cons first others inductionHypothesis =>
      rw [List.mem_cons, not_or]
      exact ⟨first.ne_empty.symm, inductionHypothesis⟩

/-- A valid token is accepted. -/
theorem HasValue.exists_digits (valid : HasValue slot token value) :
    ∃ digits, ofToken slot token = .ok digits := by
  cases valid with
  | @register token number names =>
      refine ⟨BitString.render (Bits.ofNat 4 number), ?_⟩
      rw [ofToken_of_shaped (.inl names.isRegisterShaped), if_pos rfl,
        ofRegister_of_namesRegister names]
  | number ranged shows inRange =>
      refine ⟨BitString.render (Bits.ofInt slot.width value), ?_⟩
      rw [ofToken_of_showsNumber ranged shows, if_pos inRange]

private theorem takes_iff_ne_filler : slot.takesOperand = true ↔ slot ≠ .filler := by
  cases slot <;> decide

/-- A token that is accepted is valid. -/
theorem exists_hasValue (takes : slot.takesOperand = true)
    (accepted : ofToken slot token = .ok digits) : ∃ value, HasValue slot token value := by
  have outcome : Outcome slot token (ofToken slot token) :=
    outcome_ofToken (takes_iff_ne_filler.mp takes)
  rw [accepted] at outcome
  cases outcome with
  | register isRegister names =>
      subst isRegister
      exact ⟨_, .register names⟩
  | number ranged shows inRange => exact ⟨_, .number ranged shows inRange⟩

theorem HasValue.not_refused (valid : HasValue slot token value)
    (refused : Outcome slot token (.error error)) : False := by
  obtain ⟨digits, accepted⟩ := valid.exists_digits
  cases accepted.symm.trans refused.ofToken_eq

private theorem HaveValues.not_firstRefused (valid : HaveValues slots tokens values) :
    ¬FirstRefused slots tokens error := by
  intro refused
  induction refused generalizing values with
  | here refused =>
      cases valid with
      | cons first => exact first.not_refused refused
  | later _ _ inductionHypothesis =>
      cases valid with
      | cons _ others => exact inductionHypothesis others

theorem FirstRefused.unique {error' : LineError} (first : FirstRefused slots tokens error)
    (second : FirstRefused slots tokens error') : error = error' := by
  induction first with
  | here refused =>
      cases second with
      | here refused' =>
          exact Except.error.inj (refused.ofToken_eq.symm.trans refused'.ofToken_eq)
      | later valid' => exact (valid'.not_refused refused).elim
  | later valid _ inductionHypothesis =>
      cases second with
      | here refused' => exact (valid.not_refused refused').elim
      | later _ others' => exact inductionHypothesis others'

/-! ## The tokens of a line -/

private theorem ofTokens_cons_of_takes (takes : slot.takesOperand = true) :
    ofTokens (slot :: slots) (token :: tokens) = (do
      let digits ← ofToken slot token
      return digits ++ (← ofTokens slots tokens)) := by
  simp only [ofTokens, takes, if_true]

private theorem ofTokens_cons_of_not_takes (takesNone : slot.takesOperand = false) :
    ofTokens (slot :: slots) tokens = (do return "0000" ++ (← ofTokens slots tokens)) := by
  simp only [ofTokens, takesNone, Bool.false_eq_true, if_false]

/-- As many tokens as slots are all valid, and then they have digits, or one of them is the
first that is refused. -/
theorem ofTokens_cases (counted : tokens.length = (slots.filter Slot.takesOperand).length) :
    (∃ values digits, HaveValues (slots.filter Slot.takesOperand) tokens values ∧
        ofTokens slots tokens = .ok digits) ∨
      ∃ error, FirstRefused (slots.filter Slot.takesOperand) tokens error ∧
        ofTokens slots tokens = .error error := by
  induction slots generalizing tokens with
  | nil =>
      obtain rfl := List.eq_nil_of_length_eq_zero counted
      exact .inl ⟨[], "", .nil, rfl⟩
  | cons slot slots inductionHypothesis =>
      cases takes : slot.takesOperand with
      | false =>
          rw [List.filter_cons_of_neg (by simp [takes])] at counted ⊢
          rw [ofTokens_cons_of_not_takes takes]
          rcases inductionHypothesis counted with
            ⟨values, digits, valid, shown⟩ | ⟨error, refused, failed⟩
          · rw [shown]
            exact .inl ⟨values, "0000" ++ digits, valid, rfl⟩
          · rw [failed]
            exact .inr ⟨error, refused, rfl⟩
      | true =>
          rw [List.filter_cons_of_pos takes] at counted ⊢
          cases tokens with
          | nil => cases counted
          | cons token tokens =>
              rw [ofTokens_cons_of_takes takes]
              cases made : ofToken slot token with
              | error error =>
                  have outcome : Outcome slot token (ofToken slot token) :=
                    outcome_ofToken (takes_iff_ne_filler.mp takes)
                  rw [made] at outcome
                  exact .inr ⟨error, .here outcome, rfl⟩
              | ok first =>
                  obtain ⟨value, hasValue⟩ := exists_hasValue takes made
                  rcases inductionHypothesis (Nat.succ.inj counted) with
                    ⟨values, digits, valid, shown⟩ | ⟨error, refused, failed⟩
                  · rw [shown]
                    exact .inl ⟨value :: values, first ++ digits, .cons hasValue valid, rfl⟩
                  · rw [failed]
                    exact .inr ⟨error, .later hasValue refused, rfl⟩

/-! ## Values and operands -/

/-- A token has a value that is its operand's, up to multiples of the capacity. -/
theorem Denotes.residue_eq {operand : Operand} (denotes : Denotes slot token operand)
    (valid : HasValue slot token value) :
    value % 2 ^ slot.width = operand.value % 2 ^ slot.width := by
  cases denotes with
  | register names =>
      cases valid with
      | register names' => rw [names'.unique names, Operand.value]
      | number ranged => cases ranged
  | signed shows =>
      cases valid with
      | number _ shows' => rw [shows'.unique shows, Operand.value]
  | unsigned shows =>
      cases valid with
      | number _ shows' => rw [shows'.unique shows, Operand.value]
  | @whole token word number shows stands =>
      cases valid with
      | number _ shows' =>
          obtain rfl := shows.unique shows'
          have ranged := word.isLt
          rw [Operand.value, Slot.width]
          rcases stands with rfl | rfl
          · rw [BitVec.toInt_eq_toNat_cond]
            split <;> omega
          · rfl

theorem Denotes.takesOperand {operand : Operand} (denotes : Denotes slot token operand) :
    slot.takesOperand = true := by
  cases denotes <;> rfl

private theorem DenoteAll.total_eq {operands : List Operand}
    (denote : DenoteAll slots tokens operands)
    (valid : HaveValues (slots.filter Slot.takesOperand) tokens values) (top : Nat) :
    Field.total (Field.operandsBelow top slots) values =
      Field.total (Field.operandsBelow top slots) (operands.map Operand.value) := by
  induction denote generalizing values top with
  | nil =>
      cases valid
      rfl
  | filler others inductionHypothesis =>
      rw [Field.operandsBelow_cons_of_not_takes rfl]
      exact inductionHypothesis valid _
  | operand denotes others inductionHypothesis =>
      have takes := denotes.takesOperand
      rw [List.filter_cons_of_pos takes] at valid
      cases valid with
      | cons first later =>
          rw [Field.operandsBelow_cons_of_takes takes, List.map_cons, Field.total, Field.total,
            inductionHypothesis later, Field.share, Field.share, denotes.residue_eq first]

end Values

/-! ## What becomes of a line -/

/-- What becomes of an operation with the tokens of its operands. An accepted line is the
layout of a word, which is the pattern of the operation with the values in their fields. -/
inductive Assembles (operation : Operation) (tokens : List String) :
    Except LineError String → Prop
  | word {values : List Int} {word : Word}
      (valid : HaveValues operation.operandSlots tokens values)
      (sum : word.toNat =
        operation.row.pattern.toNat + Field.total operation.operandFields values)
      (others : ∀ bit, (∀ field ∈ operation.operandFields, ¬field.Covers bit) →
        word.getLsbD bit = operation.row.pattern.getLsbD bit) :
      Assembles operation tokens (.ok word.layout)
  | wrongCount (differ : tokens.length ≠ operation.operandSlots.length) :
      Assembles operation tokens
        (.error (.operand (.wrongCount tokens.length operation.operandSlots.length)))
  | refused {error : LineError} (counted : tokens.length = operation.operandSlots.length)
      (first : FirstRefused operation.operandSlots tokens error) :
      Assembles operation tokens (.error error)

section Assembles

variable {operation : Operation} {text line : String} {values : List Int}
  {result : Except LineError String}

theorem ofOperands_of_miscounted
    (differ : (Statement.tokens text).length ≠ operation.operandSlots.length) :
    ofOperands operation text = .error
      (.operand (.wrongCount (Statement.tokens text).length operation.operandSlots.length)) := by
  rw [ofOperands, operation.operandCount_eq, if_pos differ]

theorem ofOperands_of_counted
    (counted : (Statement.tokens text).length = operation.operandSlots.length) :
    ofOperands operation text = (do
      let opcodeDigits := if operation.origin = 16 then "" else "0000"
      let operandDigits ← ofTokens operation.shape (Statement.tokens text)
      return insert operation.template (opcodeDigits ++ operandDigits)) := by
  rw [ofOperands, operation.operandCount_eq, if_neg (Decidable.not_not.mpr counted)]

theorem ofOperands_of_haveValues
    (valid : HaveValues operation.operandSlots (Statement.tokens text) values) :
    ∃ line, ofOperands operation text = .ok line := by
  rw [ofOperands_of_counted valid.length_eq]
  rcases ofTokens_cases valid.length_eq with ⟨-, digits, -, shown⟩ | ⟨error, refused, -⟩
  · rw [shown]
    exact ⟨_, rfl⟩
  · exact absurd refused valid.not_firstRefused

/-- An accepted line is the layout of the word that its values make up. -/
theorem assembles_of_accepted (accepted : ofOperands operation text = .ok line)
    (valid : HaveValues operation.operandSlots (Statement.tokens text) values) :
    ∃ word : Word, line = word.layout ∧
      word.toNat = operation.row.pattern.toNat + Field.total operation.operandFields values ∧
      ∀ bit, (∀ field ∈ operation.operandFields, ¬field.Covers bit) →
        word.getLsbD bit = operation.row.pattern.getLsbD bit := by
  obtain ⟨operands, written, formed, rfl⟩ := Instruction.layout_of_ofOperands accepted
  obtain ⟨-, digits, shown, -⟩ := Instruction.ofTokens_of_ofOperands accepted
  have sameTotal := (denoteAll_of_allWritten? shown written).total_eq valid operation.origin
  refine ⟨_, rfl, ?_, fun bit outside => Instruction.getLsbD_word formed outside⟩
  rw [Instruction.toNat_word formed]
  exact congrArg _ sameTotal.symm

theorem assembles_ofOperands (operation : Operation) (text : String) :
    Assembles operation (Statement.tokens text) (ofOperands operation text) := by
  by_cases counted : (Statement.tokens text).length = operation.operandSlots.length
  · rcases ofTokens_cases counted with ⟨values, -, valid, -⟩ | ⟨error, refused, failed⟩
    · obtain ⟨line, accepted⟩ := ofOperands_of_haveValues valid
      obtain ⟨word, rfl, sum, others⟩ := assembles_of_accepted accepted valid
      rw [accepted]
      exact .word valid sum others
    · rw [ofOperands_of_counted counted, failed]
      exact .refused counted refused
  · rw [ofOperands_of_miscounted counted]
    exact .wrongCount counted

theorem Assembles.ofOperands_eq (assembles : Assembles operation (Statement.tokens text) result) :
    ofOperands operation text = result := by
  cases assembles with
  | @word values word valid sum others =>
      obtain ⟨line, accepted⟩ := ofOperands_of_haveValues valid
      obtain ⟨word', rfl, sum', -⟩ := assembles_of_accepted accepted valid
      rw [accepted, BitVec.eq_of_toNat_eq (sum.trans sum'.symm)]
  | wrongCount differ => exact ofOperands_of_miscounted differ
  | refused counted first =>
      rw [ofOperands_of_counted counted]
      rcases ofTokens_cases counted with ⟨values, -, valid, -⟩ | ⟨error, first', failed⟩
      · exact absurd first valid.not_firstRefused
      · rw [failed, first.unique first']
        rfl

private theorem exists_line_iff :
    (∃ line, ofOperands operation text = .ok line) ↔
      ∃ values, HaveValues operation.operandSlots (Statement.tokens text) values := by
  constructor
  · rintro ⟨line, accepted⟩
    have assembles := assembles_ofOperands operation text
    rw [accepted] at assembles
    cases assembles with
    | word valid => exact ⟨_, valid⟩
  · rintro ⟨values, valid⟩
    exact ofOperands_of_haveValues valid

end Assembles

/-- The encoding of an operation with an operand text depends only on the tokens of the text,
which are its maximal runs, and an empty one behind a separator at the end. There is a line
exactly when there are as many tokens as operand slots and every token is valid for its slot.
It is the layout of the pattern with the values in their fields. A text that ends in a
separator is never accepted. -/
theorem encoding_follows_fields (operation : Operation) (text : String) :
    ∃ tokens, (∀ found, Statement.Tokenizes text.toList found ↔ found = tokens) ∧
      (∀ result, ofOperands operation text = result ↔ Assembles operation tokens result) ∧
      ((∃ line, ofOperands operation text = .ok line) ↔
        tokens.length = operation.operandSlots.length ∧
          ∀ entry ∈ operation.operandSlots.zip tokens, ∃ value, HasValue entry.1 entry.2 value) ∧
      (∀ other : String, Statement.Tokenizes other.toList tokens →
        ofOperands operation other = ofOperands operation text) ∧
      ∀ last ∈ text.toList.getLast?, Statement.isSeparator last = true →
        ∀ line, ofOperands operation text ≠ .ok line := by
  refine ⟨Statement.tokens text, ?_, ?_, ?_, ?_, ?_⟩
  · intro found
    rw [Statement.tokenizes_iff, eq_comm]
  · intro result
    constructor
    · rintro rfl
      exact assembles_ofOperands operation text
    · exact Assembles.ofOperands_eq
  · rw [exists_line_iff, exists_haveValues_iff]
  · intro other sameTokens
    have assembles := assembles_ofOperands operation other
    rw [Statement.tokenizes_iff.mp sameTokens] at assembles
    exact assembles.ofOperands_eq.symm
  · intro last ends separates line accepted
    obtain ⟨values, valid⟩ := exists_line_iff.mp ⟨line, accepted⟩
    exact valid.empty_not_mem (Statement.empty_mem_tokens ends separates)

/-- Blanks and empty places between the tokens make no difference, and a comma at the end
does. -/
theorem loadn_of_spaced_tokens :
    ofOperands .loadn " r3 ,,-5" = .ok "0001 0011 1111 1011" ∧
      ∀ line, ofOperands .loadn "r3, -5," ≠ .ok line := by
  have spaced : Statement.tokens " r3 ,,-5" = ["r3", "-5"] := by decide +kernel
  have plain : Statement.tokens "r3, -5" = ["r3", "-5"] := by decide +kernel
  have encoded : ofOperands .loadn "r3, -5" = .ok "0001 0011 1111 1011" := by decide +kernel
  obtain ⟨tokens, only, -, -, alike, -⟩ := encoding_follows_fields .loadn "r3, -5"
  obtain ⟨-, -, -, -, -, refuses⟩ := encoding_follows_fields .loadn "r3, -5,"
  obtain rfl := (only _).mp (Statement.tokenizes_iff.mpr plain)
  refine ⟨?_, refuses ',' (by decide) (by decide)⟩
  rw [alike _ (Statement.tokenizes_iff.mpr spaced), encoded]

end Encoding

end MiniatureMachine
