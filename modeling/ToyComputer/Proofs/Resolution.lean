import ToyComputer.Assembly.Line

/-!
Resolution: an operation is told by its mnemonic and its operands. Encodings that share a mnemonic
take operands of different kinds, so the first encoding that takes them is the only one, and it has
a place for each of them.
-/

namespace ToyComputer

/-- An opcode is handed all operands of an operation, and has a place for each of them. -/
theorem Opcode.build_operands (operation : Operation) :
    operation.opcode.build operation.operands = .ok (operation, []) := by
  cases operation with
  | copy target source => cases source <;> rfl
  | flexible op target left right => cases right <;> rfl
  | _ => rfl

theorem Operation.eq_of_operands (first second : Operation) (opcode : first.opcode = second.opcode)
    (operands : first.operands = second.operands) : first = second := by
  have one := Opcode.build_operands first
  rw [opcode, operands, Opcode.build_operands second] at one
  cases one
  rfl

theorem Operation.kinds_operands (operation : Operation) :
    operation.operands.map Operand.kind = operation.opcode.pattern := by
  cases operation with
  | copy target source => cases source <;> rfl
  | flexible op target left right => cases right <;> rfl
  | _ => rfl

theorem Operand.kind_eq_register {operand : Operand} :
    operand.kind = .register ↔ ∃ register, operand = .register register := by
  cases operand <;> simp [kind]

theorem Operand.kind_eq_value {operand : Operand} :
    operand.kind = .value ↔ ∃ word, operand = .immediate word := by
  cases operand <;> simp [kind]

theorem Operand.kind_eq_address {operand : Operand} :
    operand.kind = .address ↔ ∃ address, operand = .address address := by
  cases operand <;> simp [kind]

/-- An opcode asks nothing more of its operands than their kinds. -/
theorem Opcode.exists_operation (opcode : Opcode) (operands : List Operand)
    (fits : operands.map Operand.kind = opcode.pattern) :
    ∃ operation : Operation, operation.opcode = opcode ∧ operation.operands = operands := by
  cases opcode
  case' copy form => cases form
  case' flexible op form => cases form
  all_goals simp only [pattern, Form.kind, List.map_eq_cons_iff, List.map_eq_nil_iff,
    Operand.kind_eq_register, Operand.kind_eq_value, Operand.kind_eq_address] at fits
  case copy.register =>
    obtain ⟨_, _, rfl, ⟨target, rfl⟩, _, _, rfl, ⟨source, rfl⟩, rfl⟩ := fits
    exact ⟨.copy target (.register source), rfl, rfl⟩
  case copy.immediate =>
    obtain ⟨_, _, rfl, ⟨target, rfl⟩, _, _, rfl, ⟨word, rfl⟩, rfl⟩ := fits
    exact ⟨.copy target (.immediate word), rfl, rfl⟩
  case store width =>
    obtain ⟨_, _, rfl, ⟨target, rfl⟩, _, _, rfl, ⟨source, rfl⟩, rfl⟩ := fits
    exact ⟨.store width target source, rfl, rfl⟩
  case load width =>
    obtain ⟨_, _, rfl, ⟨target, rfl⟩, _, _, rfl, ⟨source, rfl⟩, rfl⟩ := fits
    exact ⟨.load width target source, rfl, rfl⟩
  case flexible.register =>
    obtain ⟨_, _, rfl, ⟨target, rfl⟩, _, _, rfl, ⟨left, rfl⟩, _, _, rfl, ⟨right, rfl⟩, rfl⟩ := fits
    exact ⟨.flexible _ target left (.register right), rfl, rfl⟩
  case flexible.immediate =>
    obtain ⟨_, _, rfl, ⟨target, rfl⟩, _, _, rfl, ⟨left, rfl⟩, _, _, rfl, ⟨word, rfl⟩, rfl⟩ := fits
    exact ⟨.flexible _ target left (.immediate word), rfl, rfl⟩
  case registers op =>
    obtain ⟨_, _, rfl, ⟨target, rfl⟩, _, _, rfl, ⟨left, rfl⟩, _, _, rfl, ⟨right, rfl⟩, rfl⟩ := fits
    exact ⟨.registers op target left right, rfl, rfl⟩
  case negate =>
    obtain ⟨_, _, rfl, ⟨register, rfl⟩, rfl⟩ := fits
    exact ⟨.negate register, rfl, rfl⟩
  case flow =>
    obtain ⟨_, _, rfl, ⟨target, rfl⟩, rfl⟩ := fits
    exact ⟨.flow target, rfl, rfl⟩
  case jump =>
    obtain ⟨_, _, rfl, ⟨target, rfl⟩, rfl⟩ := fits
    exact ⟨.jump target, rfl, rfl⟩
  case jumpIfZero =>
    obtain ⟨_, _, rfl, ⟨register, rfl⟩, _, _, rfl, ⟨target, rfl⟩, rfl⟩ := fits
    exact ⟨.jumpIfZero register target, rfl, rfl⟩
  case call =>
    obtain ⟨_, _, rfl, ⟨target, rfl⟩, rfl⟩ := fits
    exact ⟨.call target, rfl, rfl⟩
  case ret =>
    subst fits
    exact ⟨.ret, rfl, rfl⟩

theorem Opcode.eq_of_pattern (first second : Opcode) (mnemonic : first.mnemonic = second.mnemonic)
    (pattern : first.pattern = second.pattern) : first = second := by
  have distinct : ∀ one ∈ Opcode.all, ∀ other ∈ Opcode.all,
      one.mnemonic = other.mnemonic → one.pattern = other.pattern → one = other := by
    decide +kernel
  exact distinct first (Opcode.mem_all first) second (Opcode.mem_all second) mnemonic pattern

theorem Encoding.takes_iff (encoding : Encoding) (operands : List Operand) :
    encoding.takes operands = true ↔ encoding.pattern = operands.map Operand.kind := beq_iff_eq

namespace Assembly

theorem chosen_fits (encodings : List Encoding) (operands : List Operand) (encoding : Encoding)
    (found : encodings.find? (·.takes operands) = some encoding) :
    encoding ∈ encodings ∧ encoding.pattern = operands.map Operand.kind := by
  have taken := List.find?_some found
  exact ⟨List.mem_of_find?_eq_some found, (encoding.takes_iff operands).mp taken⟩

theorem formed_of_fits (mnemonic : String) (operands : List Operand) (encodings : List Encoding)
    (known : encodings ∈ encodings? mnemonic) (encoding : Encoding) (member : encoding ∈ encodings)
    (fits : encoding.pattern = operands.map Operand.kind) :
    ∃ operation : Operation, operation.opcode = encoding.opcode ∧
      operation.opcode.mnemonic = mnemonic ∧ operation.operands = operands := by
  obtain ⟨named, pattern⟩ := (mem_encodings? mnemonic encoding).mp ⟨encodings, known, member⟩
  obtain ⟨operation, opcode, written⟩ :=
    encoding.opcode.exists_operation operands (fits.symm.trans pattern)
  exact ⟨operation, opcode, opcode ▸ named, written⟩

/-- A mnemonic that no encoding has is reported, and so are operands that no encoding takes. Of
operands that one takes, that one forms an operation. -/
theorem resolve_cases (mnemonic : String) (operands : List Operand) :
    (encodings? mnemonic = none ∧
      resolve mnemonic operands = .error (.unknownMnemonic mnemonic)) ∨
    (∃ encodings ∈ encodings? mnemonic,
      (∀ encoding ∈ encodings, encoding.pattern ≠ operands.map Operand.kind) ∧
      resolve mnemonic operands =
        .error (.noMatchingPattern mnemonic (operands.map Operand.kind))) ∨
    (∃ operation : Operation, operation.opcode.mnemonic = mnemonic ∧
      operation.operands = operands ∧ resolve mnemonic operands = .ok operation) := by
  unfold resolve
  split
  · next unknown => exact Or.inl ⟨unknown, rfl⟩
  · next encodings known =>
      right
      split
      · next encoding found =>
          right
          obtain ⟨member, fits⟩ := chosen_fits _ operands encoding found
          obtain ⟨operation, opcode, named, rfl⟩ :=
            formed_of_fits mnemonic operands encodings known encoding member fits
          refine ⟨operation, named, rfl, ?_⟩
          rw [StateT.run', ← opcode, Opcode.build_operands]
          rfl
      · next missing =>
          refine Or.inl ⟨encodings, known, ?_, rfl⟩
          intro encoding member fits
          exact List.find?_eq_none.mp missing encoding member
            ((encoding.takes_iff operands).mpr fits)

theorem encoding_known (operation : Operation) :
    ∃ encodings ∈ encodings? operation.opcode.mnemonic,
      operation.opcode.encoding ∈ encodings :=
  (mem_encodings? _ _).mpr ⟨rfl, rfl⟩

theorem resolve_operands (operation : Operation) :
    resolve operation.opcode.mnemonic operation.operands = .ok operation := by
  obtain ⟨listed, known, member⟩ := encoding_known operation
  rcases resolve_cases operation.opcode.mnemonic operation.operands with ⟨unknown, _⟩ |
    ⟨encodings, found, misfit, _⟩ | ⟨other, mnemonic, operands, resolved⟩
  · rw [unknown] at known
    cases known
  · obtain rfl := Option.mem_unique known found
    exact absurd operation.kinds_operands.symm (misfit operation.opcode.encoding member)
  · have pattern : other.opcode.pattern = operation.opcode.pattern := by
      rw [← Operation.kinds_operands, operands, Operation.kinds_operands]
    have opcode := Opcode.eq_of_pattern _ _ mnemonic pattern
    rw [resolved, Operation.eq_of_operands other operation opcode operands]

theorem resolve_eq_ok (mnemonic : String) (operands : List Operand) (operation : Operation) :
    resolve mnemonic operands = .ok operation ↔
      operation.opcode.mnemonic = mnemonic ∧ operation.operands = operands := by
  constructor
  · intro resolved
    rcases resolve_cases mnemonic operands with ⟨_, failed⟩ | ⟨_, _, _, failed⟩ |
      ⟨other, named, written, same⟩
    · rw [failed] at resolved; cases resolved
    · rw [failed] at resolved; cases resolved
    · rw [same] at resolved
      cases resolved
      exact ⟨named, written⟩
  · rintro ⟨rfl, rfl⟩
    exact resolve_operands operation

theorem resolve_eq_error (mnemonic : String) (operands : List Operand) (error : SourceError) :
    resolve mnemonic operands = .error error ↔
      (encodings? mnemonic = none ∧ error = .unknownMnemonic mnemonic) ∨
      (∃ encodings ∈ encodings? mnemonic,
        (∀ encoding ∈ encodings, encoding.pattern ≠ operands.map Operand.kind) ∧
        error = .noMatchingPattern mnemonic (operands.map Operand.kind)) := by
  rcases resolve_cases mnemonic operands with ⟨unknown, failed⟩ | ⟨encodings, known, misfit, failed⟩ |
    ⟨operation, rfl, rfl, resolved⟩
  · simp [failed, unknown, eq_comm]
  · rw [Option.mem_def] at known
    simp only [failed, known, Except.error.injEq, reduceCtorEq, false_and, false_or, Option.mem_def,
      Option.some.injEq, exists_eq_left']
    exact ⟨fun same => ⟨misfit, same.symm⟩, fun given => given.2.symm⟩
  · obtain ⟨listed, known, member⟩ := encoding_known operation
    rw [Option.mem_def] at known
    simp only [resolved, known, reduceCtorEq, false_and, false_or, Option.mem_def,
      Option.some.injEq, exists_eq_left', false_iff, not_and]
    intro misfit
    exact absurd operation.kinds_operands.symm (misfit operation.opcode.encoding member)

theorem resolve_of_fits (mnemonic : String) (operands : List Operand) (encodings : List Encoding)
    (known : encodings ∈ encodings? mnemonic) (encoding : Encoding) (member : encoding ∈ encodings)
    (fits : encoding.pattern = operands.map Operand.kind) :
    ∃ operation, resolve mnemonic operands = .ok operation ∧ operation.opcode = encoding.opcode ∧
      operation.opcode.mnemonic = mnemonic ∧ operation.operands = operands := by
  obtain ⟨operation, opcode, named, written⟩ :=
    formed_of_fits mnemonic operands encodings known encoding member fits
  exact ⟨operation, (resolve_eq_ok _ _ _).mpr ⟨named, written⟩, opcode, named, written⟩

/-- Resolution loses nothing of what was written. It succeeds exactly if an encoding of the mnemonic
has the kinds of the operands as its pattern, and then it is this encoding with these operands. It
fails for a mnemonic without encodings or for the kinds of all operands, and never while the chosen
encoding takes its operands. The table of the mnemonics tells of each opcode the mnemonic and the
pattern that it has. -/
theorem resolution_loses_nothing (mnemonic : String) (operands : List Operand) :
    let known := encodings? mnemonic
    let kinds := operands.map Operand.kind
    ((∃ operation, resolve mnemonic operands = .ok operation) ↔
        ∃ encodings ∈ known, ∃ encoding ∈ encodings, encoding.pattern = kinds) ∧
      (∀ encodings ∈ known, ∀ encoding ∈ encodings, encoding.pattern = kinds →
        ∃ operation, resolve mnemonic operands = .ok operation ∧
          operation.opcode = encoding.opcode ∧ operation.opcode.mnemonic = mnemonic ∧
          operation.operands = operands) ∧
      (∀ operation : Operation,
        resolve operation.opcode.mnemonic operation.operands = .ok operation) ∧
      (∀ error, resolve mnemonic operands = .error error ↔
        (known = none ∧ error = .unknownMnemonic mnemonic) ∨
        (∃ encodings ∈ known, (∀ encoding ∈ encodings, encoding.pattern ≠ kinds) ∧
          error = .noMatchingPattern mnemonic kinds)) ∧
      (∀ encodings ∈ known, ∀ encoding, encodings.find? (·.takes operands) = some encoding →
        ∃ operation, encoding.opcode.build operands = .ok (operation, []) ∧
          resolve mnemonic operands = .ok operation) ∧
      ∀ encoding, (∃ encodings ∈ known, encoding ∈ encodings) ↔
        encoding.opcode.mnemonic = mnemonic ∧ encoding.pattern = encoding.opcode.pattern := by
  intro known kinds
  refine ⟨⟨?_, ?_⟩, resolve_of_fits mnemonic operands, resolve_operands,
    resolve_eq_error mnemonic operands, ?_, mem_encodings? mnemonic⟩
  · rintro ⟨operation, resolved⟩
    obtain ⟨rfl, rfl⟩ := (resolve_eq_ok mnemonic operands operation).mp resolved
    obtain ⟨encodings, listed, member⟩ := encoding_known operation
    exact ⟨encodings, listed, operation.opcode.encoding, member, operation.kinds_operands.symm⟩
  · rintro ⟨encodings, listed, encoding, member, fits⟩
    obtain ⟨operation, resolved, _⟩ :=
      resolve_of_fits mnemonic operands encodings listed encoding member fits
    exact ⟨operation, resolved⟩
  · intro encodings listed encoding found
    obtain ⟨member, fits⟩ := chosen_fits encodings operands encoding found
    obtain ⟨operation, resolved, opcode, _, rfl⟩ :=
      resolve_of_fits mnemonic operands encodings listed encoding member fits
    exact ⟨operation, opcode ▸ Opcode.build_operands operation, resolved⟩

theorem immediate_form_resolved :
    (∃ operation, resolve "add" [.register .r1, .register .sp, .immediate 7] = .ok operation ∧
      operation.opcode = .flexible .add .immediate ∧ operation.opcode.mnemonic = "add" ∧
      operation.operands = [.register .r1, .register .sp, .immediate 7]) ∧
    resolve "add" [.immediate 7] = .error (.noMatchingPattern "add" [.value]) ∧
    resolve "Add" [.immediate 7] = .error (.unknownMnemonic "Add") := by
  have fitting := resolution_loses_nothing "add" [.register .r1, .register .sp, .immediate 7]
  have misfit := resolution_loses_nothing "add" [.immediate 7]
  have unknown := resolution_loses_nothing "Add" [.immediate 7]
  exact ⟨fitting.2.1 _ rfl (Opcode.flexible .add .immediate).encoding (by decide) rfl,
    (misfit.2.2.2.1 _).mpr (Or.inr ⟨_, rfl, by decide, rfl⟩),
    (unknown.2.2.2.1 _).mpr (Or.inl ⟨by decide, rfl⟩)⟩

end Assembly

end ToyComputer
