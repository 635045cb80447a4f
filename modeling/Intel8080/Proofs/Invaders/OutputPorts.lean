import Intel8080.Proofs.Invaders.Lifetime

/-!
# What the program has sent

The shift register and the two banks of sounds are latches behind the output ports. They hold
the last bytes that the program has sent to four of these ports since the last reset, whatever
else has happened in between, and an IN from port 3 shows a window on the last two of port 4.
-/

namespace Intel8080.Invaders

/-- The last byte sent to a port since the last reset, or zero. -/
def lastSent (port : UInt8) (history : List Happening) : UInt8 :=
  (sent port history).getLastD 0

/-- The byte sent to a port before the last one since the last reset, or zero. -/
def lastSentButOne (port : UInt8) (history : List Happening) : UInt8 :=
  (sent port history).dropLast.getLastD 0

/-! ## The register as two bytes -/

namespace ShiftRegister

theorem value_push (r : ShiftRegister) (data : UInt8) :
    (r.push data).value = joinBytes data (highByte r.value) := by
  have below := r.value.toNat_lt
  have byte := data.toNat_lt
  apply UInt16.toNat_inj.mp
  calc
    (r.push data).value.toNat = r.value.toNat / 256 ||| data.toNat <<< 8 % 2 ^ 16 := by
      rw [push, UInt16.toNat_or, UInt16.toNat_shiftRight, UInt16.toNat_shiftLeft,
        UInt8.toNat_toUInt16]
      exact congrArg (· ||| data.toNat <<< 8 % 2 ^ 16) (Nat.shiftRight_eq_div_pow _ 8)
    _ = data.toNat <<< 8 ||| r.value.toNat / 256 := by
      rw [Nat.mod_eq_of_lt (by rw [Nat.shiftLeft_eq]; omega), Nat.or_comm]
    _ = data.toNat <<< 8 + r.value.toNat / 256 :=
      (Nat.shiftLeft_add_eq_or_of_lt (by omega) _).symm
    _ = (joinBytes data (highByte r.value)).toNat := by
      rw [toNat_joinBytes, toNat_highByte, Nat.shiftLeft_eq]
      omega

theorem push_eq (r : ShiftRegister) (data : UInt8) :
    r.push data = ⟨joinBytes data (highByte r.value), r.offset⟩ :=
  congrArg (ShiftRegister.mk · r.offset) (r.value_push data)

theorem toNat_and_seven (offset : UInt8) : (offset &&& 0x07).toNat = offset.toNat % 8 := by
  rw [UInt8.toNat_and]
  exact Nat.and_two_pow_sub_one_eq_mod _ 3

/-- The window, as long as it starts inside the upper byte. -/
theorem toNat_read {r : ShiftRegister} (inside : r.offset.toNat ≤ 8) :
    r.read.toNat = r.value.toNat >>> (8 - r.offset.toNat) % 256 := by
  have distance : (8 - r.offset).toUInt16.toNat = 8 - r.offset.toNat := by
    rw [UInt8.toNat_toUInt16, UInt8.toNat_sub_of_le _ _ (UInt8.le_iff_toNat_le.mpr inside)]
    rfl
  rw [read, UInt16.toNat_toUInt8, UInt16.toNat_shiftRight, distance,
    Nat.mod_eq_of_lt (show 8 - r.offset.toNat < 16 by omega)]

end ShiftRegister

/-! ## The latches by port -/

namespace Board

/-- The latches behind the output ports. -/
def latches (b : Board) : ShiftRegister × UInt8 × UInt8 :=
  (b.shift, b.firstSounds, b.secondSounds)

/-- The ports behind which there is a latch. -/
def latchPorts : List UInt8 :=
  [2, 3, 4, 5]

def latchesOf (bytes : UInt8 → List UInt8) : ShiftRegister × UInt8 × UInt8 :=
  (⟨joinBytes ((bytes 4).getLastD 0) ((bytes 4).dropLast.getLastD 0),
      (bytes 2).getLastD 0 &&& 0x07⟩,
    (bytes 3).getLastD 0, (bytes 5).getLastD 0)

theorem output_of_notMem {port : UInt8} (value : UInt8) (b : Board) (h : port ∉ latchPorts) :
    b.output port value = b := by
  simp only [latchPorts, List.mem_cons, List.not_mem_nil, or_false, not_or,
    ← UInt8.toNat_inj] at h
  have ignored : OutputPort.ofNumber? port = none ∨
      OutputPort.ofNumber? port = some .watchdog := by
    unfold OutputPort.ofNumber?
    split <;> simp_all
  rcases ignored with unwired | watchdog
  · rw [output, unwired]
  · rw [output, watchdog]
    rfl

theorem latches_output {b : Board} {bytes : UInt8 → List UInt8} (h : b.latches = latchesOf bytes)
    (port value : UInt8) :
    (b.output port value).latches =
      latchesOf fun other => bytes other ++ if port = other then [value] else [] := by
  by_cases latched : port ∈ latchPorts
  · simp only [latches, latchesOf, Prod.mk.injEq] at h
    obtain ⟨shift, first, second⟩ := h
    simp only [latchPorts, List.mem_cons, List.not_mem_nil, or_false] at latched
    rcases latched with rfl | rfl | rfl | rfl
    · simp [output, OutputPort.ofNumber?, write, ShiftRegister.setOffset, latches, latchesOf,
        shift, first, second]
    · simp [output, OutputPort.ofNumber?, write, latches, latchesOf, shift, second]
    · simp [output, OutputPort.ofNumber?, write, ShiftRegister.push_eq, latches, latchesOf,
        shift, first, second]
    · simp [output, OutputPort.ofNumber?, write, latches, latchesOf, shift, first]
  · rw [output_of_notMem value b latched, h]
    simp only [latchPorts, List.mem_cons, List.not_mem_nil, or_false, not_or] at latched
    simp [latchesOf, latched]

/-! ## The latches by history -/

theorem latches_new (switches : Switches) : (new switches).latches = latchesOf fun _ => [] := rfl

theorem latches_setControl (b : Board) (control : Control) (pressed : Bool) :
    (b.setControl control pressed).latches = b.latches := by
  unfold setControl
  split
  · rfl
  · cases control.wire.1 <;> rfl

theorem latches_undergo {happening : Happening} (switches : Switches) (b : Board)
    (h : happening.isReset = false) :
    (b.undergo switches happening).latches = (b.receive happening.sent?).latches := by
  cases happening with
  | reset => cases h
  | press control pressed => exact b.latches_setControl control pressed
  | event event => cases event <;> rfl

/-- The latches hold what has been sent since the last reset. -/
theorem latches_after (switches : Switches) (history : List Happening) :
    (after switches history).latches = latchesOf fun port => sent port history := by
  induction history using List.reverseRecOn with
  | nil => exact latches_new switches
  | append_singleton history happening ih =>
      rw [after_concat]
      cases resets : happening.isReset with
      | true =>
          cases happening with
          | reset =>
              simp only [sent, sinceReset_reset]
              exact latches_new switches
          | press control pressed => cases resets
          | event event => cases resets
      | false =>
          rw [latches_undergo switches _ resets]
          simp only [sent, sinceReset_concat _ _ resets, Happening.sentTo?]
          cases sending : happening.sent? with
          | none => simpa [receive, sent] using ih
          | some pair =>
              obtain ⟨port, value⟩ := pair
              rw [receive, latches_output ih port value]
              congr
              funext other
              by_cases same : port = other <;> simp [same, sent]

theorem shift_after (switches : Switches) (history : List Happening) :
    (after switches history).shift =
      ⟨joinBytes (lastSent 4 history) (lastSentButOne 4 history), lastSent 2 history &&& 0x07⟩ :=
  congrArg Prod.fst (latches_after switches history)

theorem value_after (switches : Switches) (history : List Happening) :
    (after switches history).shift.value.toNat =
      256 * (lastSent 4 history).toNat + (lastSentButOne 4 history).toNat := by
  rw [shift_after, toNat_joinBytes]

theorem offset_after (switches : Switches) (history : List Happening) :
    (after switches history).shift.offset.toNat = (lastSent 2 history).toNat % 8 := by
  rw [shift_after, ShiftRegister.toNat_and_seven]

theorem sounds_after (switches : Switches) (history : List Happening) :
    ((after switches history).firstSounds, (after switches history).secondSounds) =
      (lastSent 3 history, lastSent 5 history) :=
  congrArg Prod.snd (latches_after switches history)

theorem input_shiftWindow_after (switches : Switches) (history : List Happening) :
    ((after switches history).input 3).1.toNat =
      ((256 * (lastSent 4 history).toNat + (lastSentButOne 4 history).toNat) >>>
        (8 - (lastSent 2 history).toNat % 8)) % 256 := by
  change (after switches history).shift.read.toNat = _
  have offset := offset_after switches history
  rw [ShiftRegister.toNat_read (by omega), value_after, offset]

theorem latches_receive_of_other {b : Board} {sending : Option (UInt8 × UInt8)}
    (h : ∀ port value, sending = some (port, value) → port ∉ latchPorts) :
    (b.receive sending).latches = b.latches := by
  cases sending with
  | none => rfl
  | some pair => rw [receive, output_of_notMem pair.2 b (h pair.1 pair.2 rfl)]

end Board

namespace Machine

/-- An IN from port 3 shows a window on the last two bytes sent to port 4, whose offset is
below eight, and the sounds are the last bytes sent to their ports. An IN changes nothing on
the board, an OUT to another port changes no latch, and a step that fails changes nothing. -/
theorem latches_reflect_history (configuration : Configuration) (journal : Journal)
    (calls : List Call) :
    (∀ earlier before cost later,
      (new configuration journal).history calls = earlier ++ .event (.step before cost) :: later →
        ∃ q, before.step = (.ok cost, q) ∧
          (asked? before = some 3 → q.core.registers.a.toNat =
            ((256 * (lastSent 4 earlier).toNat + (lastSentButOne 4 earlier).toNat) >>>
              (8 - (lastSent 2 earlier).toNat % 8)) % 256) ∧
          (∀ port, asked? before = some port → q.ports.device = before.ports.device) ∧
          ((∀ port value, sent? before = some (port, value) → port ∉ Board.latchPorts) →
            q.ports.device.latches = before.ports.device.latches)) ∧
    (∀ earlier before cause later,
      (new configuration journal).history calls = earlier ++ .event (.fault before cause) :: later →
        before.step = (.error cause, before)) ∧
    ((new configuration journal).serveAll calls).board.shift.value.toNat =
      256 * (lastSent 4 ((new configuration journal).history calls)).toNat +
        (lastSentButOne 4 ((new configuration journal).history calls)).toNat ∧
    ((new configuration journal).serveAll calls).board.shift.offset.toNat =
      (lastSent 2 ((new configuration journal).history calls)).toNat % 8 ∧
    ((new configuration journal).serveAll calls).board.shift.offset.toNat ≤ 7 ∧
    ((new configuration journal).serveAll calls).sounds =
      (lastSent 3 ((new configuration journal).history calls),
        lastSent 5 ((new configuration journal).history calls)) := by
  have board : ((new configuration journal).serveAll calls).board =
      Board.after configuration.switches ((new configuration journal).history calls) :=
    congrArg Ports.device (ports_serveAll configuration journal calls)
  have offset := Board.offset_after configuration.switches
    ((new configuration journal).history calls)
  refine ⟨?_, ?_, ?_, ?_, ?_, ?_⟩
  · intro earlier before cost later split
    obtain ⟨start, q, stepped⟩ := exists_step_of_history split
    have device := (Wired.of_ports start).device_of_step stepped
    refine ⟨q, stepped, ?_, ?_, ?_⟩
    · intro asking
      rw [Wired.a_of_step start stepped asking, Board.input_shiftWindow_after]
    · intro port asking
      rw [device, sent?_of_asked? asking]
      rfl
    · intro other
      rw [device, Board.latches_receive_of_other other]
  · intro earlier before cause later split
    exact step_error_of_history split
  · rw [board, Board.value_after]
  · rw [board, offset]
  · rw [board]
    omega
  · rw [sounds, board, Board.sounds_after]

/-- A host that puts a program of its own behind the board: OUT 4, OUT 2 and IN 3, with AB
in A. -/
def shifting : Call :=
  .act
    (.adjust fun cpu => cpu.modify fun p =>
      { p with
        core := { Core.cleared with registers := { Registers.cleared with a := 0xab } }
        memory := ⟨⟨#[0xd3, 0x04, 0xd3, 0x02, 0xdb, 0x03]⟩⟩ })
    fun _ => rfl

def shifted (steps : Nat) : Machine :=
  (new .standard ⟨none, #[]⟩).serveAll (shifting :: List.replicate steps (.act .step trivial))

theorem latches_reflect_history_shifting :
    (shifted 2).cpu.processor.step.2.core.registers.a.toNat = 0x58 ∧
      (shifted 3).board.shift.value.toNat = 0xab00 ∧
      (shifted 3).board.shift.offset.toNat = 3 := by
  obtain ⟨steps, -, value, offset, -⟩ := latches_reflect_history .standard ⟨none, #[]⟩
    (shifting :: List.replicate 3 (.act .step trivial))
  obtain ⟨q, stepped, window, -⟩ := steps
    [.event (.step (shifted 0).cpu.processor 10), .event (.step (shifted 1).cpu.processor 10)]
    (shifted 2).cpu.processor 10 [] rfl
  rw [stepped]
  exact ⟨window rfl, value, offset⟩

end Machine

end Intel8080.Invaders
