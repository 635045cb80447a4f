import Intel8080.Processor.Dump

/-!
# Notices

What a run reports about itself while it goes on. A notice is a cause with its
data; it has a level, and its wording is one function away.
-/

namespace Intel8080

/-- How important a notice is, the most important first. -/
inductive Level where
  | warn
  | info
  | debug
  | trace
  deriving DecidableEq

namespace Level

def rank : Level → Nat
  | .warn => 0
  | .info => 1
  | .debug => 2
  | .trace => 3

def label : Level → String
  | .warn => "WARN"
  | .info => "INFO"
  | .debug => "DEBUG"
  | .trace => "TRACE"

def admits (threshold level : Level) : Bool :=
  level.rank ≤ threshold.rank

end Level

inductive Notice where
  | fetched (core : Core)
  | interruptReplaced (dropped vector : UInt8)
  | interruptAccepted (vector : UInt8) (address : UInt16)
  | interruptsDisabled (address : UInt16)
  | interruptsEnabled (address : UInt16)
  | unmappedRead (port : UInt8)
  | unmappedWrite (port value : UInt8)
  | boardReset
  | romLoaded (size : Nat)
  | programStarted (size : Nat) (address : UInt16)
  | programExited (steps cycles : Nat)
  | stepLimitReached (address : UInt16)
  | programFaulted (fault : Fault) (core : Core)
  | consoleCallIgnored (function : UInt8)

namespace Notice

def level : Notice → Level
  | .fetched _ => .trace
  | .interruptReplaced _ _ => .trace
  | .interruptAccepted _ _ => .debug
  | .interruptsDisabled _ => .debug
  | .interruptsEnabled _ => .debug
  | .unmappedRead _ => .debug
  | .unmappedWrite _ _ => .debug
  | .boardReset => .info
  | .romLoaded _ => .info
  | .programStarted _ _ => .info
  | .programExited _ _ => .info
  | .stepLimitReached _ => .warn
  | .programFaulted _ _ => .warn
  | .consoleCallIgnored _ => .debug

def padRight (width : Nat) (text : String) : String :=
  String.ofList (text.toList.rightpad width ' ')

def message : Notice → String
  | .fetched core =>
      s!"{Hex.word core.opcodeAddress}  {padRight 16 core.disassembly} {core.dump}"
  | .interruptReplaced dropped vector =>
      s!"interrupt {Hex.byteLiteral dropped} replaced by {Hex.byteLiteral vector}"
  | .interruptAccepted vector address =>
      s!"interrupt {Hex.byteLiteral vector} accepted at {Hex.word address}"
  | .interruptsDisabled address => s!"DI at {Hex.word address}"
  | .interruptsEnabled address => s!"EI at {Hex.word address}"
  | .unmappedRead port => s!"read from unmapped port {port}"
  | .unmappedWrite port value => s!"write {Hex.byteLiteral value} to unmapped port {port}"
  | .boardReset => "Space Invaders reset"
  | .romLoaded size => s!"loaded {size} byte ROM"
  | .programStarted size address => s!"running {size} byte program at {Hex.wordLiteral address}"
  | .programExited steps cycles => s!"program exited after {steps} steps, {cycles} cycles"
  | .stepLimitReached address => s!"step limit reached at PC {Hex.word address}"
  | .programFaulted fault core => s!"diagnostic stopped: {fault.message} ({core.dump})"
  | .consoleCallIgnored function => s!"ignoring BDOS function {function}"

def line (notice : Notice) : String :=
  notice.level.label ++ " " ++ notice.message

end Notice

end Intel8080
