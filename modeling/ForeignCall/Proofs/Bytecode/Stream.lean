import ForeignCall.Bytecode.Instruction
import ForeignCall.Instances
import ForeignCall.Proofs.Results
import Mathlib.Data.List.Basic

/-!
# ForeignCall.Proofs.Bytecode.Stream

Instructions and their bytes determine each other. A stream is read from its beginning, one
instruction after the other, so what its operands look like does not matter: the reader never looks
for an opcode inside an instruction. It stops where no instruction starts.

* `NoInstruction` — why no instruction starts at some place of a stream;
* `decodeFrom_encode_append` — the bytes of instructions are read, whatever follows them;
* `exists_encode_append` — every stream is the bytes of instructions up to its end, or up to a place
  where no instruction starts;
* `decode_iff_encode` — reading and writing are inverse, and when reading fails.
-/

namespace ForeignCall

/-! ## Opcodes -/

namespace Opcode

@[simp] theorem ofByte?_byte (op : Opcode) : ofByte? op.byte = some op := by
  cases op <;> rfl

/-- A byte has an opcode exactly if it is the byte of one. -/
theorem ofByte?_eq_some_iff {b : UInt8} {op : Opcode} : ofByte? b = some op ↔ op.byte = b := by
  constructor
  · intro h
    unfold ofByte? at h
    split_ifs at h with h1 h2 h3 h4 h5 h6 h7 h8 <;> cases h <;> exact Eq.symm ‹b = _›
  · rintro rfl
    exact ofByte?_byte op

theorem ofByte?_eq_none_iff {b : UInt8} : ofByte? b = none ↔ ∀ op : Opcode, op.byte ≠ b := by
  rw [Option.eq_none_iff_forall_ne_some]
  exact forall_congr' fun op => not_congr ofByte?_eq_some_iff

end Opcode

/-! ## One instruction -/

/-- As many operands as an opcode takes make an instruction. -/
theorem Instruction.exists_of_operands {op : Opcode} {operands : List UInt8}
    (h : operands.length = op.arity) :
    ∃ i : Instruction, i.opcode = op ∧ i.operands = operands := by
  cases op with
  | loadConstant =>
    obtain ⟨a, rfl⟩ := List.length_eq_one_iff.mp h
    exact ⟨.loadConstant a, rfl, rfl⟩
  | discard =>
    obtain ⟨a, rfl⟩ := List.length_eq_one_iff.mp h
    exact ⟨.discard a, rfl, rfl⟩
  | startCall =>
    obtain ⟨a, b, rfl⟩ := List.length_eq_two.mp h
    exact ⟨.startCall a b, rfl, rfl⟩
  | argument =>
    obtain ⟨a, b, rfl⟩ := List.length_eq_two.mp h
    exact ⟨.argument a b, rfl, rfl⟩
  | callFunction =>
    obtain ⟨a, b, rfl⟩ := List.length_eq_two.mp h
    exact ⟨.callFunction a b, rfl, rfl⟩
  | callVoidFunction =>
    obtain ⟨a, rfl⟩ := List.length_eq_one_iff.mp h
    exact ⟨.callVoidFunction a, rfl, rfl⟩
  | callVar =>
    obtain ⟨a, b, c, rfl⟩ := List.length_eq_three.mp h
    exact ⟨.callVar a b c, rfl, rfl⟩
  | callVoidVar =>
    obtain ⟨a, b, rfl⟩ := List.length_eq_two.mp h
    exact ⟨.callVoidVar a b, rfl, rfl⟩

/-- Why no instruction starts at the beginning of some bytes, which lie `offset` bytes behind the
beginning of their stream. -/
inductive NoInstruction (offset : Nat) : List UInt8 → StreamError → Prop
  | unknown {b : UInt8} {rest : List UInt8} (h : ∀ op : Opcode, op.byte ≠ b) :
    NoInstruction offset (b :: rest) (.unknownOpcode b)
  | truncated {op : Opcode} {operands : List UInt8} (h : operands.length < op.arity) :
    NoInstruction offset (op.byte :: operands) (.truncated op offset)

/-- Bytes begin with an instruction, unless there are none or no instruction starts there. -/
theorem starts_with_instruction (offset : Nat) (bytes : List UInt8) :
    bytes = [] ∨ (∃ (i : Instruction) (rest : List UInt8), bytes = i.bytes ++ rest) ∨
      ∃ e, NoInstruction offset bytes e := by
  cases bytes with
  | nil => exact .inl rfl
  | cons b rest =>
    right
    cases hop : Opcode.ofByte? b with
    | none => exact .inr ⟨_, .unknown (Opcode.ofByte?_eq_none_iff.mp hop)⟩
    | some op =>
      obtain rfl := Opcode.ofByte?_eq_some_iff.mp hop
      by_cases hshort : rest.length < op.arity
      · exact .inr ⟨_, .truncated hshort⟩
      · have htake : (rest.take op.arity).length = op.arity := by
          rw [List.length_take]
          omega
        obtain ⟨i, hi, hoperands⟩ := Instruction.exists_of_operands htake
        refine .inl ⟨i, rest.drop op.arity, ?_⟩
        rw [Instruction.bytes, hi, hoperands, List.cons_append, List.take_append_drop]

/-! ## Reading a stream -/

/-- An instruction is read from its bytes, whatever follows it. -/
theorem decodeFrom_bytes_append (offset : Nat) (i : Instruction) (rest : List UInt8) :
    decodeFrom offset (i.bytes ++ rest) =
      (decodeFrom (offset + i.bytes.length) rest).map (i :: ·) := by
  cases i <;> rfl

/-- **The bytes of instructions are read as the instructions**, whatever follows them. -/
theorem decodeFrom_encode_append (offset : Nat) (is : List Instruction) (rest : List UInt8) :
    decodeFrom offset (encode is ++ rest) =
      (decodeFrom (offset + (encode is).length) rest).map (is ++ ·) := by
  induction is generalizing offset with
  | nil =>
    have hid : (fun rest : List Instruction => [] ++ rest) = id := rfl
    rw [hid, Except.map_id]
    rfl
  | cons i is ih =>
    have hcons : encode (i :: is) = i.bytes ++ encode is := rfl
    rw [hcons, List.append_assoc, decodeFrom_bytes_append, ih, List.length_append, Nat.add_assoc]
    cases decodeFrom (offset + (i.bytes.length + (encode is).length)) rest <;> rfl

theorem decodeFrom_of_noInstruction {offset : Nat} {bytes : List UInt8} {e : StreamError}
    (h : NoInstruction offset bytes e) : decodeFrom offset bytes = .error e := by
  cases h with
  | unknown hbyte => rw [decodeFrom, Opcode.ofByte?_eq_none_iff.mpr hbyte]
  | @truncated op operands hshort =>
    rw [decodeFrom, Opcode.ofByte?_byte]
    -- each case of the reader takes as many operands as the opcode asks for
    cases op with
    | loadConstant | discard | callVoidFunction =>
      obtain rfl : operands = [] := List.length_eq_zero_iff.mp (Nat.lt_one_iff.mp hshort)
      rfl
    | startCall | argument | callFunction | callVoidVar =>
      match operands, hshort with
      | [], _ | [_], _ => rfl
    | callVar =>
      match operands, hshort with
      | [], _ | [_], _ | [_, _], _ => rfl

/-- **Every stream is the bytes of instructions up to its end**, or up to a place where no
instruction starts. -/
theorem exists_encode_append (offset : Nat) (bytes : List UInt8) :
    ∃ is rest, encode is ++ rest = bytes ∧
      (rest = [] ∨ ∃ e, NoInstruction (offset + (encode is).length) rest e) := by
  rcases starts_with_instruction offset bytes with hnil | ⟨i, behind, hbytes⟩ | herror
  · exact ⟨[], [], hnil.symm, .inl rfl⟩
  · have hlt : behind.length < bytes.length := by
      rw [hbytes, List.length_append, Instruction.length_bytes]
      omega
    obtain ⟨is, rest, hbehind, hrest⟩ := exists_encode_append (offset + i.bytes.length) behind
    have hcons : encode (i :: is) = i.bytes ++ encode is := rfl
    refine ⟨i :: is, rest, ?_, ?_⟩
    · rw [hcons, List.append_assoc, hbehind, hbytes]
    · rw [hcons, List.length_append, ← Nat.add_assoc]
      exact hrest
  · exact ⟨[], bytes, rfl, .inr herror⟩
termination_by bytes.length

/-- **Reading and writing are inverse.** Instructions are read back from their bytes, and only from
them; reading fails exactly where no instruction starts behind the bytes of those before, and says
why. -/
theorem decode_iff_encode :
    (∀ is, decode (encode is) = .ok is) ∧
      (∀ bytes is, decode bytes = .ok is ↔ encode is = bytes) ∧
        ∀ bytes e, decode bytes = .error e ↔
          ∃ is rest, encode is ++ rest = bytes ∧ NoInstruction (encode is).length rest e := by
  have hback : ∀ is, decode (encode is) = .ok is := by
    intro is
    have h := decodeFrom_encode_append 0 is []
    rw [List.append_nil, decodeFrom, Except.map, List.append_nil] at h
    exact h
  have hfail : ∀ is rest e, NoInstruction (encode is).length rest e →
      decode (encode is ++ rest) = .error e := by
    intro is rest e he
    have h := decodeFrom_encode_append 0 is rest
    rw [Nat.zero_add, decodeFrom_of_noInstruction he] at h
    exact h
  refine ⟨hback, fun bytes is => ⟨fun h => ?_, fun h => h ▸ hback is⟩, fun bytes e =>
    ⟨fun h => ?_, fun ⟨is, rest, hbytes, he⟩ => hbytes ▸ hfail is rest e he⟩⟩
  · obtain ⟨is', rest, rfl, rfl | ⟨e, he⟩⟩ := exists_encode_append 0 bytes
    · rw [List.append_nil, hback] at h
      rw [List.append_nil, Except.ok.inj h]
    · rw [Nat.zero_add] at he
      rw [hfail is' rest e he] at h
      cases h
  · obtain ⟨is', rest, rfl, rfl | ⟨e', he⟩⟩ := exists_encode_append 0 bytes
    · rw [List.append_nil, hback] at h
      cases h
    · rw [Nat.zero_add] at he
      rw [hfail is' rest e' he] at h
      exact ⟨is', rest, rfl, Except.error.inj h ▸ he⟩

/-- An operand that looks like an opcode is none, and the place of an error counts from the start of
the stream. -/
example : decode [1, 3, 3, 0] = .error (.truncated .startCall 2) := by decide

end ForeignCall
