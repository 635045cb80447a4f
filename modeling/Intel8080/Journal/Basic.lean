import Intel8080.Journal.Notice

/-!
# Journals

A journal collects the notices of a run that its threshold lets through, in
order. A journal without a threshold stays empty.
-/

namespace Intel8080

structure Journal where
  threshold : Option Level
  entries : Array Notice

namespace Journal

def opened (threshold : Option Level) : Journal :=
  ⟨threshold, #[]⟩

def keeps (journal : Journal) (level : Level) : Bool :=
  match journal.threshold with
  | some threshold => threshold.admits level
  | none => false

/-- Appends those notices that the journal keeps. They are only worked out if it
keeps any at all. -/
@[inline] def record (journal : Journal) (notices : Unit → List Notice) : Journal :=
  if journal.threshold.isSome then
    { journal with
      entries := journal.entries ++ ((notices ()).filter fun n => journal.keeps n.level).toArray }
  else
    journal

def note (journal : Journal) (notice : Notice) : Journal :=
  journal.record fun _ => [notice]

def lines (journal : Journal) : Array String :=
  journal.entries.map Notice.line

def emptied (journal : Journal) : Journal :=
  { journal with entries := #[] }

end Journal

end Intel8080
