import Intel8080.Proofs.Invaders.Lifetime

/-!
# What the program can read

Two input ports show the controls and the switches bit by bit. All of them are written through
masks into the same two bytes, so a mask is first shown to leave every other bit alone. Whatever
the program sends and whatever else the host does, each bit of a control is then what has last
been done to it since the last reset, and the tilt sensor keeps that it has been pressed.
-/

namespace Intel8080.Invaders

/-! ## Bits of a byte -/

/-- The bits of a byte, the lowest first. -/
def bits (byte : UInt8) : List Bool :=
  (List.range 8).map byte.toNat.testBit

theorem toNat_one_shiftLeft {bit : UInt8} (small : bit.toNat < 8) :
    ((1 : UInt8) <<< bit).toNat = 2 ^ bit.toNat := by
  have fits : 2 ^ bit.toNat < 2 ^ 8 := Nat.pow_lt_pow_right (by decide) small
  rw [UInt8.toNat_shiftLeft, Nat.mod_eq_of_lt small]
  change 1 <<< bit.toNat % 2 ^ 8 = _
  rw [Nat.one_shiftLeft, Nat.mod_eq_of_lt fits]

theorem testBit_erase (byte mask : UInt8) (i : Nat) :
    (byte &&& ~~~mask).toNat.testBit i = (byte.toNat.testBit i && !mask.toNat.testBit i) := by
  rw [← UInt8.toNat_toBitVec, ← UInt8.toNat_toBitVec, ← UInt8.toNat_toBitVec, UInt8.toBitVec_and,
    UInt8.toBitVec_not, BitVec.testBit_toNat, BitVec.testBit_toNat, BitVec.testBit_toNat,
    BitVec.getLsbD_and, BitVec.getLsbD_not]
  by_cases inside : i < 8
  · rw [decide_eq_true inside, Bool.true_and]
  · rw [BitVec.getLsbD_of_ge byte.toBitVec i (by omega), Bool.false_and, Bool.false_and]

/-- A mask of one bit changes that bit and no other. -/
theorem testBit_setBit (byte : UInt8) {bit : UInt8} (small : bit.toNat < 8) (set : Bool)
    (other : UInt8) :
    (setBit byte bit set).toNat.testBit other.toNat =
      if bit = other then set else byte.toNat.testBit other.toNat := by
  cases set with
  | true =>
      change (byte ||| 1 <<< bit).toNat.testBit _ = _
      rw [UInt8.toNat_or, Nat.testBit_or, toNat_one_shiftLeft small, Nat.testBit_two_pow]
      by_cases same : bit = other <;> simp [same, UInt8.toNat_inj]
  | false =>
      change (byte &&& ~~~(1 <<< bit)).toNat.testBit _ = _
      rw [testBit_erase, toNat_one_shiftLeft small, Nat.testBit_two_pow]
      by_cases same : bit = other <;> simp [same, UInt8.toNat_inj]

theorem mod_four_eq_testBit (n : Nat) :
    n % 4 = (n.testBit 0).toNat + 2 * (n.testBit 1).toNat := by
  rw [Nat.toNat_testBit, Nat.toNat_testBit]
  omega

/-! ## The switches in a byte -/

namespace Switches

theorem toNat_ships (s : Switches) : s.ships.toNat = min (max s.shipsPerCredit.toNat 3) 6 := by
  rw [ships, apply_ite UInt8.toNat, apply_ite UInt8.toNat]
  simp only [UInt8.lt_iff_toNat_lt, UInt8.reduceToNat]
  split
  · omega
  · split <;> omega

theorem toNat_ships_sub (s : Switches) :
    (s.ships - 3).toNat = min (max s.shipsPerCredit.toNat 3) 6 - 3 := by
  have atLeast : (3 : UInt8) ≤ s.ships := by
    rw [UInt8.le_iff_toNat_le, s.toNat_ships]
    exact Nat.le_min.mpr ⟨Nat.le_max_right _ _, by decide⟩
  rw [UInt8.toNat_sub_of_le _ _ atLeast, s.toNat_ships]
  rfl

/-- The switches own three bits of the byte they are written into. -/
theorem testBit_apply (s : Switches) (byte : UInt8) (i : Nat) :
    (s.apply byte).toNat.testBit i =
      if i < 2 then (s.ships - 3).toNat.testBit i
      else if i = 7 then !s.showCoinInfo
      else byte.toNat.testBit i := by
  have mask : shipsMask.toNat = 2 ^ 2 - 1 := rfl
  have info : ((1 : UInt8) <<< coinInfoBit).toNat = 2 ^ 7 := rfl
  have counted : (byte &&& ~~~shipsMask &&& ~~~(1 <<< coinInfoBit) |||
      ((s.ships - 3) &&& shipsMask)).toNat.testBit i =
      if i < 2 then (s.ships - 3).toNat.testBit i
      else if i = 7 then false
      else byte.toNat.testBit i := by
    rw [UInt8.toNat_or, Nat.testBit_or, testBit_erase, testBit_erase, UInt8.toNat_and,
      Nat.testBit_and, mask, info, Nat.testBit_two_pow_sub_one, Nat.testBit_two_pow]
    by_cases low : i < 2
    · simp [low]
    · by_cases top : i = 7 <;> simp [low, top, eq_comm]
  unfold apply
  cases s.showCoinInfo with
  | true => exact counted
  | false =>
      change (_ ||| 1 <<< coinInfoBit).toNat.testBit i = _
      rw [UInt8.toNat_or, Nat.testBit_or, counted, info, Nat.testBit_two_pow]
      by_cases top : i = 7
      · simp [top]
      · simp [top, Ne.symm top]

example : apply ⟨5, true⟩ 0xff = 0x7e := by decide

end Switches

/-! ## Controls by their bits -/

/-- The bits to which no control is wired. -/
def freeBits : List (InputByte × UInt8) :=
  [(.first, 3), (.first, 7), (.second, 0), (.second, 1), (.second, 3), (.second, 7)]

namespace Control

theorem wire_injective {a b : Control} (h : a.wire = b.wire) : a = b := by
  rcases a with _ | ⟨_ | _, _ | _ | _ | _⟩ | _ <;>
    rcases b with _ | ⟨_ | _, _ | _ | _ | _⟩ | _ <;> first | rfl | cases h

theorem wire_lt (control : Control) : control.wire.2.toNat < 8 := by
  rcases control with _ | ⟨_ | _, _ | _ | _ | _⟩ | _ <;> decide

theorem wire_notMem_freeBits (control : Control) : control.wire ∉ freeBits := by
  rcases control with _ | ⟨_ | _, _ | _ | _ | _⟩ | _ <;> decide

end Control

namespace Board

def inputByte (b : Board) : InputByte → UInt8
  | .first => b.firstInput
  | .second => b.secondInput

def bit (b : Board) (place : InputByte × UInt8) : Bool :=
  (b.inputByte place.1).toNat.testBit place.2.toNat

/-- Whether a control reads as pressed. -/
def shows (b : Board) (control : Control) : Bool :=
  b.bit control.wire

theorem bits_firstInput (b : Board) :
    bits b.firstInput = [b.shows .coin, b.shows (.button .two .start),
      b.shows (.button .one .start), b.bit (.first, 3), b.shows (.button .one .shoot),
      b.shows (.button .one .left), b.shows (.button .one .right), b.bit (.first, 7)] := rfl

theorem bits_secondInput (b : Board) :
    bits b.secondInput = [b.bit (.second, 0), b.bit (.second, 1), b.shows .tilt,
      b.bit (.second, 3), b.shows (.button .two .shoot), b.shows (.button .two .left),
      b.shows (.button .two .right), b.bit (.second, 7)] := rfl

theorem bit_modifyInput_setBit (b : Board) {place : InputByte × UInt8}
    (small : place.2.toNat < 8) (set : Bool) (other : InputByte × UInt8) :
    (b.modifyInput (fun byte => setBit byte place.2 set) place.1).bit other =
      if place = other then set else b.bit other := by
  obtain ⟨byte, place⟩ := place
  obtain ⟨byte', other⟩ := other
  cases byte <;> cases byte' <;> simp [bit, inputByte, modifyInput, testBit_setBit _ small]

/-- A control changes the bit it is wired to and no other. The tilt sensor latches. -/
theorem bit_setControl (b : Board) (control : Control) (pressed : Bool)
    (place : InputByte × UInt8) :
    (b.setControl control pressed).bit place =
      if control.wire = place then
        if control = .tilt then b.bit place || pressed else pressed
      else b.bit place := by
  by_cases tilt : control = .tilt
  · subst tilt
    cases pressed with
    | false =>
        rw [if_pos rfl, Bool.or_false, ite_self]
        rfl
    | true =>
        rw [if_pos rfl, Bool.or_true]
        exact b.bit_modifyInput_setBit (Control.wire_lt .tilt) true place
  · have moved : b.setControl control pressed =
        b.modifyInput (fun byte => setBit byte control.wire.2 pressed) control.wire.1 := by
      unfold setControl
      split
      · exact absurd rfl tilt
      · rfl
    rw [moved, b.bit_modifyInput_setBit control.wire_lt, if_neg tilt]

theorem shows_setControl (b : Board) (pressed : Bool) (other control : Control) :
    (b.setControl other pressed).shows control =
      if other = control then
        if control = .tilt then b.shows control || pressed else pressed
      else b.shows control := by
  rw [shows, bit_setControl]
  by_cases same : other = control
  · subst same
    rw [if_pos rfl, if_pos rfl]
    rfl
  · rw [if_neg (mt Control.wire_injective same), if_neg same]
    rfl

theorem bit_first_new (switches : Switches) (bit : UInt8) :
    (new switches).bit (.first, bit) = decide (3 = bit.toNat) := by
  change ((1 : UInt8) <<< fixedBit).toNat.testBit _ = _
  rw [toNat_one_shiftLeft (by decide), Nat.testBit_two_pow]
  rfl

theorem bit_second_new (switches : Switches) (bit : UInt8) :
    (new switches).bit (.second, bit) =
      if bit.toNat < 2 then (switches.ships - 3).toNat.testBit bit.toNat
      else if bit.toNat = 7 then !switches.showCoinInfo
      else false := by
  refine (switches.testBit_apply 0 bit.toNat).trans ?_
  rw [UInt8.toNat_zero, Nat.zero_testBit]

theorem bit_new_of_notMem (switches : Switches) {place : InputByte × UInt8}
    (wired : place ∉ freeBits) : (new switches).bit place = false := by
  obtain ⟨byte, bit⟩ := place
  cases byte with
  | first =>
      rw [bit_first_new, decide_eq_false]
      intro fixed
      have same : bit = 3 := UInt8.toNat_inj.mp fixed.symm
      exact wired (same ▸ by decide)
  | second =>
      simp only [freeBits, List.mem_cons, List.not_mem_nil, or_false, not_or, Prod.mk.injEq,
        reduceCtorEq, false_and, not_false_eq_true, true_and, ← UInt8.toNat_inj,
        UInt8.reduceToNat] at wired
      rw [bit_second_new, if_neg (by omega), if_neg (by omega)]

theorem shows_new (switches : Switches) (control : Control) :
    (new switches).shows control = false :=
  bit_new_of_notMem switches control.wire_notMem_freeBits

end Board

/-! ## Controls by history -/

/-- What has last been done to a control since the last reset. It starts released. -/
def held (control : Control) (history : List Happening) : Bool :=
  (presses control history).getLastD false

/-- How a control reads after what has been done to it. The tilt sensor latches. -/
def shownAfter (control : Control) (done : List Bool) : Bool :=
  if control = .tilt then decide (true ∈ done) else done.getLastD false

theorem shownAfter_nil (control : Control) : shownAfter control [] = false := by
  unfold shownAfter
  split <;> rfl

theorem shownAfter_concat (control : Control) (done : List Bool) (pressed : Bool) :
    shownAfter control (done ++ [pressed]) =
      if control = .tilt then shownAfter control done || pressed else pressed := by
  unfold shownAfter
  split
  · cases pressed <;> simp
  · simp

namespace Board

theorem inputByte_receive (b : Board) (sending : Option (UInt8 × UInt8)) :
    (b.receive sending).inputByte = b.inputByte := by
  unfold receive output
  split
  · split
    case h_1 port _ => cases port <;> rfl
    case h_2 => rfl
  · rfl

theorem bit_undergo_event (switches : Switches) (b : Board) (event : Event Board)
    (place : InputByte × UInt8) :
    (b.undergo switches (.event event)).bit place = b.bit place := by
  have kept : (b.undergo switches (.event event)).inputByte = b.inputByte := by
    cases event with
    | step before cost => exact b.inputByte_receive _
    | fault before cause => rfl
    | request before vector => rfl
  rw [bit, kept, bit]

/-- Each control is what has been done to it since the last reset. -/
theorem shows_after (switches : Switches) (history : List Happening) (control : Control) :
    (after switches history).shows control = shownAfter control (presses control history) := by
  induction history using List.reverseRecOn with
  | nil => exact (shows_new switches control).trans (shownAfter_nil control).symm
  | append_singleton history happening ih =>
      rw [after_concat]
      cases happening with
      | event event =>
          rw [shows, bit_undergo_event, ← shows, ih, presses, presses, sinceReset_concat _ _ rfl]
          simp [Happening.pressed?]
      | press other pressed =>
          change ((after switches history).setControl other pressed).shows control = _
          rw [presses, sinceReset_concat _ _ rfl, ← presses, Happening.pressed?,
            shows_setControl, ih]
          by_cases same : other = control
          · rw [if_pos same, if_pos same, Option.toList_some, shownAfter_concat]
          · rw [if_neg same, if_neg same, Option.toList_none, List.append_nil]
      | reset =>
          rw [presses, sinceReset_reset, shownAfter_nil]
          exact shows_new switches control

/-- What no control is wired to stays as the switches have left it. -/
theorem bit_after_of_free (switches : Switches) (history : List Happening)
    {place : InputByte × UInt8} (free : place ∈ freeBits) :
    (after switches history).bit place = (new switches).bit place := by
  induction history using List.reverseRecOn with
  | nil => rfl
  | append_singleton history happening ih =>
      rw [after_concat]
      cases happening with
      | event event => rw [bit_undergo_event, ih]
      | press control pressed =>
          have apart : control.wire ≠ place := fun same =>
            control.wire_notMem_freeBits (same ▸ free)
          change ((after switches history).setControl control pressed).bit place = _
          rw [bit_setControl, if_neg apart, ih]
      | reset => rfl

theorem bits_firstInput_after (switches : Switches) (history : List Happening) :
    bits (after switches history).firstInput =
      [held .coin history, held (.button .two .start) history, held (.button .one .start) history,
        true, held (.button .one .shoot) history, held (.button .one .left) history,
        held (.button .one .right) history, false] := by
  rw [bits_firstInput, bit_after_of_free _ _ (by decide), bit_after_of_free _ _ (by decide),
    bit_first_new, bit_first_new]
  simp only [shows_after]
  rfl

theorem bits_secondInput_after (switches : Switches) (history : List Happening) :
    bits (after switches history).secondInput =
      [(switches.ships - 3).toNat.testBit 0, (switches.ships - 3).toNat.testBit 1,
        decide (true ∈ presses .tilt history), false, held (.button .two .shoot) history,
        held (.button .two .left) history, held (.button .two .right) history,
        !switches.showCoinInfo] := by
  rw [bits_secondInput, bit_after_of_free _ _ (by decide), bit_after_of_free _ _ (by decide),
    bit_after_of_free _ _ (by decide), bit_after_of_free _ _ (by decide), bit_second_new,
    bit_second_new, bit_second_new, bit_second_new]
  simp only [shows_after]
  rfl

theorem secondInput_mod_four_after (switches : Switches) (history : List Happening) :
    (after switches history).secondInput.toNat % 4 =
      min (max switches.shipsPerCredit.toNat 3) 6 - 3 := by
  have shown := bits_secondInput_after switches history
  simp only [bits, List.range, List.range.loop, List.map_cons, List.cons.injEq] at shown
  rw [mod_four_eq_testBit, shown.1, shown.2.1, ← mod_four_eq_testBit, switches.toNat_ships_sub]
  omega

theorem input_of_unwired {port : UInt8} (b : Board) (h : 3 < port.toNat) :
    (b.input port).1 = 0 := by
  have unwired : InputPort.ofNumber? port = none := by
    unfold InputPort.ofNumber?
    split
    case h_5 => rfl
    all_goals omega
  rw [input, unwired]

end Board

namespace Machine

/-- What an IN puts into A, port by port. A control reads as what the host has last done to it
since the last reset, and the tilt sensor as whether it has been pressed since then. -/
theorem inputs_reflect_history (configuration : Configuration) (journal : Journal)
    (calls : List Call) :
    ∀ earlier before cost later,
      (new configuration journal).history calls = earlier ++ .event (.step before cost) :: later →
        ∀ port, asked? before = some port → ∃ q, before.step = (.ok cost, q) ∧
          (port = 0 → q.core.registers.a = 0x0e) ∧
          (port = 1 → bits q.core.registers.a =
            [held .coin earlier, held (.button .two .start) earlier,
              held (.button .one .start) earlier, true, held (.button .one .shoot) earlier,
              held (.button .one .left) earlier, held (.button .one .right) earlier, false]) ∧
          (port = 2 → q.core.registers.a.toNat % 4 =
              min (max configuration.switches.shipsPerCredit.toNat 3) 6 - 3 ∧
            (bits q.core.registers.a).drop 2 =
              [decide (true ∈ presses .tilt earlier), false, held (.button .two .shoot) earlier,
                held (.button .two .left) earlier, held (.button .two .right) earlier,
                !configuration.switches.showCoinInfo]) ∧
          (3 < port.toNat → q.core.registers.a = 0) := by
  intro earlier before cost later split port asking
  obtain ⟨start, q, stepped⟩ := exists_step_of_history split
  have answer := Wired.a_of_step start stepped asking
  refine ⟨q, stepped, ?_, ?_, ?_, ?_⟩
  · rintro rfl
    exact answer
  · rintro rfl
    rw [answer]
    exact Board.bits_firstInput_after _ _
  · rintro rfl
    rw [answer]
    exact ⟨Board.secondInput_mod_four_after _ _,
      congrArg (List.drop 2) (Board.bits_secondInput_after _ _)⟩
  · intro unwired
    rw [answer, Board.input_of_unwired _ unwired]

def generous : Configuration :=
  { Configuration.standard with switches := ⟨9, false⟩ }

/-- A host that puts a program of its own behind the board: IN 1 and IN 2. -/
def polling : Call :=
  .act
    (.adjust fun cpu => cpu.modify fun p =>
      { p with core := .cleared, memory := ⟨⟨#[0xdb, 0x01, 0xdb, 0x02]⟩⟩ })
    fun _ => rfl

/-- A coin is held when the machine is reset, and the cabinet tilts for a moment later on. -/
def tilting : List Call :=
  [.act (.press .coin true) trivial, .reset, .act (.press (.button .one .left) true) trivial,
    .act (.press .tilt true) trivial, .act (.press .tilt false) trivial, polling]

def polled (steps : Nat) : Processor Board :=
  ((new generous ⟨none, #[]⟩).serveAll
    (tilting ++ List.replicate steps (.act .step trivial))).cpu.processor

theorem inputs_reflect_history_tilting :
    (∃ q, (polled 0).step = (.ok 10, q) ∧
        bits q.core.registers.a = [false, false, false, true, false, true, false, false]) ∧
      ∃ q, (polled 1).step = (.ok 10, q) ∧ q.core.registers.a.toNat % 4 = 3 ∧
        (bits q.core.registers.a).drop 2 = [true, false, false, false, false, true] := by
  have reads := inputs_reflect_history generous ⟨none, #[]⟩
    (tilting ++ List.replicate 2 (.act .step trivial))
  let pressed : List Happening :=
    [.press .coin true, .reset, .press (.button .one .left) true, .press .tilt true,
      .press .tilt false]
  obtain ⟨q, stepped, -, first, -⟩ :=
    reads pressed (polled 0) 10 [.event (.step (polled 1) 10)] rfl 1 rfl
  obtain ⟨r, steppedAgain, -, -, second, -⟩ :=
    reads (pressed ++ [.event (.step (polled 0) 10)]) (polled 1) 10 [] rfl 2 rfl
  exact ⟨⟨q, stepped, first rfl⟩, r, steppedAgain, second rfl⟩

end Machine

end Intel8080.Invaders
