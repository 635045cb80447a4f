import Intel8080.Diagnostic.Basic
import Intel8080.Proofs.Text.Hexadecimal

/-!
# The wording of a failure

Every kind of failure has a message that begins in its own way, and an address takes four digits
in all of them. So the message of a CPU fault can be told from all others and says which address
and which text it was made of.
-/

namespace Intel8080

namespace Diagnostic

def faultMessage (address : UInt16) (text : String) : String :=
  s!"CPU fault at {Hex.word address}: {text}"

/-! ## Beginnings -/

def Opens (text : String) (c : Char) : Prop :=
  text.toList.head? = some c

theorem Opens.append {text : String} {c : Char} (opens : Opens text c) (rest : String) :
    Opens (text ++ rest) c := by
  rw [Opens, String.toList_append, List.head?_append, opens, Option.some_or]

theorem Opens.unique {text : String} {c d : Char} (opens : Opens text c) (opens' : Opens text d) :
    c = d :=
  Option.some.inj (opens.symm.trans opens')

theorem exists_opens_repr (n : Nat) : ∃ c, Opens n.repr c ∧ c.isDigit = true := by
  have digits := Nat.toList_repr (n := n)
  cases spelled : Nat.toDigits 10 n with
  | nil => exact absurd spelled Nat.toDigits_ne_nil
  | cons c rest =>
      refine ⟨c, by rw [Opens, digits, spelled]; rfl, ?_⟩
      exact Nat.isDigit_of_mem_toDigits (by decide) (by decide) (spelled ▸ List.mem_cons_self)

theorem opens_faultMessage (address : UInt16) (text : String) :
    Opens (faultMessage address text) 'C' := by
  have opens : Opens "CPU fault at " 'C' := rfl
  exact ((opens.append _).append _).append _

theorem faultMessage_injective {address address' : UInt16} {text text' : String}
    (same : faultMessage address text = faultMessage address' text') :
    address = address' ∧ text = text' := by
  have spelled : ∀ address text, (faultMessage address text).toList =
      "CPU fault at ".toList ++ ((Hex.word address).toList ++ (": ".toList ++ text.toList)) := by
    intro address text
    change ("CPU fault at " ++ Hex.word address ++ ": " ++ text).toList = _
    simp only [String.toList_append, List.append_assoc]
  have letters := congrArg String.toList same
  rw [spelled, spelled] at letters
  have length : (Hex.word address).toList.length = (Hex.word address').toList.length := by
    rw [Hex.length_toList_word, Hex.length_toList_word]
  obtain ⟨digits, rest⟩ := List.append_inj (List.append_cancel_left letters) length
  exact ⟨Hex.word_injective (String.toList_inj.mp digits),
    String.toList_inj.mp (List.append_cancel_left rest)⟩

/-! ## Failures -/

theorem exists_opens_message {failure : Failure}
    (other : ∀ address disassembly fault, failure ≠ .instruction address disassembly fault) :
    ∃ c, Opens failure.message c ∧ c ≠ 'C' := by
  cases failure with
  | instruction address disassembly fault => exact absurd rfl (other address disassembly fault)
  | programTooLarge access =>
      have opens : Opens "program does not fit in memory" 'p' := rfl
      exact ⟨'p', opens, by decide⟩
  | patchOutside address access =>
      have opens : Opens "cannot patch " 'c' := rfl
      exact ⟨'c', opens.append _, by decide⟩
  | stepLimit limit address =>
      have opens : Opens "no exit after " 'n' := rfl
      exact ⟨'n', ((((opens.append _).append _).append _).append _), by decide⟩
  | unreadable access =>
      obtain ⟨c, opens, digit⟩ := exists_opens_repr access.length
      refine ⟨c, (((opens.append _).append _).append _).append _, ?_⟩
      rintro rfl
      exact absurd digit (by decide)
  | text failure =>
      cases failure with
      | outsideMemory start =>
          have opens : Opens "string address " 's' := rfl
          exact ⟨'s', (opens.append _).append _, by decide⟩
      | unterminated start =>
          have opens : Opens "unterminated string at " 'u' := rfl
          exact ⟨'u', opens.append _, by decide⟩

theorem Failure.message_eq_faultMessage_iff {failure : Failure} {address : UInt16}
    {text : String} :
    failure.message = faultMessage address text ↔
      ∃ disassembly fault, failure = .instruction address disassembly fault ∧
        disassembly.getD "??" = text := by
  constructor
  · intro same
    by_cases failed : ∃ address' disassembly fault,
        failure = .instruction address' disassembly fault
    · obtain ⟨address', disassembly, fault, rfl⟩ := failed
      obtain ⟨rfl, shown⟩ := faultMessage_injective same
      exact ⟨disassembly, fault, rfl, shown⟩
    · have other : ∀ address disassembly fault,
          failure ≠ .instruction address disassembly fault :=
        fun address disassembly fault is => failed ⟨address, disassembly, fault, is⟩
      obtain ⟨c, opens, differs⟩ := exists_opens_message other
      exact absurd (opens.unique (same ▸ opens_faultMessage address text)) differs
  · rintro ⟨disassembly, fault, rfl, rfl⟩
    rfl

end Diagnostic

end Intel8080
