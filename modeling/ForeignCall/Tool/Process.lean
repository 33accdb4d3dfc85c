import ForeignCall.Files.Tree
import ForeignCall.Tool.Copy
import ForeignCall.Tool.Runner

/-!
# ForeignCall.Tool.Process

Processes and their descriptors. A descriptor stands for a stream, a file or a device, and is there
to read from, to write to, or for both. What is written to a stream can be read from it; several
processes can share one, and what one of them has read is gone for the others. A file that has been
opened has a place where it is read or written next; all that share its descriptor share this place.

* `Process.read` and `Process.write` — a whole text through a descriptor;
* `Process.runCopy` — the program that copies texts.
-/

namespace ForeignCall

open Text (Octets octets)

/-- What is at the other side of a descriptor. -/
inductive Medium where
  | stream (index : Nat)
  /-- A file, and the number of the place in it that is read or written next. What is written can
  also come after all that the file holds. -/
  | file (path : Octets) (cursor : Nat) (appends : Bool)
  | directory
  /-- A device that holds nothing and takes all. -/
  | null
  /-- A device that has no room. -/
  | full
deriving DecidableEq

/-- What a descriptor stands for, and what it can be used for. -/
structure Handle where
  medium : Medium
  reads : Bool
  writes : Bool
deriving DecidableEq

/-- The end of a stream that is read. -/
def Handle.source (index : Nat) : Handle := ⟨.stream index, true, false⟩

/-- The end of a stream that is written. -/
def Handle.target (index : Nat) : Handle := ⟨.stream index, false, true⟩

/-- How a file is opened for writing. -/
inductive WriteMode where
  /-- What it holds is dropped. -/
  | replace
  /-- What is written comes after what it holds. -/
  | append
  /-- It can be read as well. -/
  | update
deriving DecidableEq

/-- Bytes on their way: those that come next, and those that have been written behind them, the last
part first. -/
structure Stream where
  unread : Octets := []
  written : List Octets := []

/-- All bytes of a stream. -/
def Stream.all (s : Stream) : Octets :=
  if s.written.isEmpty then s.unread else s.unread ++ s.written.reverse.flatten

/-- What a process shares with others, and what its descriptors stand for. -/
structure Process where
  streams : Array Stream := #[]
  files : Files := []
  /-- How far the files that have been opened have been read or written. -/
  cursors : Array Nat := #[]
  descriptors : List (Nat × Handle) := []
  directory : Octets := startDirectory

namespace Process

/-- What a descriptor stands for. -/
def handle? (p : Process) (n : Nat) : Option Handle := p.descriptors.lookup n

/-- What is at the other side of a descriptor. -/
def medium? (p : Process) (n : Nat) : Option Medium := (p.handle? n).map Handle.medium

/-- Lets a descriptor stand for something, or for nothing. -/
def setHandle (p : Process) (n : Nat) (h : Option Handle) : Process :=
  let others := p.descriptors.filter (·.1 ≠ n)
  { p with descriptors := match h with
    | some h => (n, h) :: others
    | none => others }

/-- A new stream with bytes to be read. -/
def newStream (p : Process) (text : Octets) : Nat × Process :=
  (p.streams.size, { p with streams := p.streams.push { unread := text } })

/-- The bytes of a stream. -/
def streamText (p : Process) (index : Nat) : Octets := (p.streams.getD index {}).all

/-- Changes a stream. -/
def modifyStream (p : Process) (index : Nat) (f : Stream → Stream) : Process :=
  { p with streams := p.streams.modify index f }

/-- How far a file has been read or written. -/
def position (p : Process) (cursor : Nat) : Nat := p.cursors.getD cursor 0

/-- Sets how far a file has been read or written. -/
def moveTo (p : Process) (cursor position : Nat) : Process :=
  { p with cursors := p.cursors.setIfInBounds cursor position }

/-- All that can be read through a handle. -/
def readHandle (p : Process) (h : Handle) : Except FileError (Octets × Process) :=
  if !h.reads then .error .badDescriptor
  else
    match h.medium with
    | .stream i => .ok (p.streamText i, p.modifyStream i fun _ => {})
    | .file path cursor _ =>
      let files := p.files.join path
      let rest := (files.content path).drop (p.position cursor)
      .ok (rest, { p with files := files }.moveTo cursor (p.position cursor + rest.length))
    | .directory => .error .isDirectory
    | .null | .full => .ok ([], p)

/-- All that can be read through a descriptor. -/
def read (p : Process) (n : Nat) : Except FileError (Octets × Process) :=
  match p.handle? n with
  | some h => p.readHandle h
  | none => .error .badDescriptor

/-- Gives the last part of what has been read through a descriptor back, to be read again. -/
def giveBack (p : Process) (n : Nat) (rest : Octets) : Process :=
  match p.medium? n with
  | some (.stream i) => p.modifyStream i fun _ => { unread := rest }
  | some (.file _ cursor _) => p.moveTo cursor (p.position cursor - rest.length)
  | _ => p

/-- A text with another one in it, from a position on. Zeros come before one that lies behind the
end. -/
def overwritten (old : Octets) (position : Nat) (text : Octets) : Octets :=
  let start := old.take position
  start ++ List.replicate (position - start.length) '\x00' ++ text ++
    old.drop (position + text.length)

/-- Writes a text through a handle. -/
def writeHandle (p : Process) (text : Octets) (h : Handle) : Except FileError Process :=
  if text.isEmpty then .ok p
  else if !h.writes then .error .badDescriptor
  else
    match h.medium with
    | .stream i => .ok (p.modifyStream i fun s => { s with written := text :: s.written })
    | .file path cursor appends =>
      let size := (p.files.contents path).size
      let position := if appends then size else p.position cursor
      let files :=
        if position = size then p.files.add path text
        else p.files.put path (overwritten (p.files.content path) position text)
      .ok ({ p with files := files }.moveTo cursor (position + text.length))
    | .directory => .error .isDirectory
    | .null => .ok p
    | .full => .error .noRoom

/-- Writes a text through a descriptor. -/
def write (p : Process) (n : Nat) (text : Octets) : Except FileError Process :=
  match p.handle? n with
  | some h => p.writeHandle text h
  | none => if text.isEmpty then .ok p else .error .badDescriptor

/-- Writes a text, if it can be written. -/
def writeAny (p : Process) (n : Nat) (text : Octets) : Process :=
  (p.write n text).toOption.getD p

/-! ## Files -/

/-- What a path leads to. -/
def node (p : Process) (path : Octets) : Except FileError Node := p.files.node p.directory path

/-- Opens a file at its start. -/
def openFile (p : Process) (path : Octets) (reads : Bool) (mode : Option WriteMode) :
    Handle × Process :=
  let files := if mode = some .replace then p.files.put path [] else p.files
  (⟨.file path p.cursors.size (mode = some .append), reads, mode.isSome⟩,
    { p with files := files, cursors := p.cursors.push 0 })

/-- Opens once more what a descriptor stands for. -/
def reopen (p : Process) (n : Nat) (reads : Bool) (mode : Option WriteMode) :
    Except FileError (Handle × Process) :=
  match p.medium? n with
  | none => .error .missing
  | some (.file path _ _) => .ok (p.openFile path reads mode)
  | some .directory =>
    if mode.isSome then .error .isDirectory else .ok (⟨.directory, reads, false⟩, p)
  | some medium => .ok (⟨medium, reads, mode.isSome⟩, p)

/-- Opens a path for reading. -/
def openToRead (p : Process) (path : Octets) : Except FileError (Handle × Process) :=
  match p.node path with
  | .error e => .error e
  | .ok (.absent _) => .error .missing
  | .ok (.plain path) => .ok (p.openFile path true none)
  | .ok (.program _) | .ok .null => .ok (⟨.null, true, false⟩, p)
  | .ok .full => .ok (⟨.full, true, false⟩, p)
  | .ok .terminal => .error .noDevice
  | .ok .directory => .ok (⟨.directory, true, false⟩, p)
  | .ok (.descriptor n) => p.reopen n true none

/-- Opens a path for writing. -/
def openToWrite (p : Process) (path : Octets) (mode : WriteMode) :
    Except FileError (Handle × Process) :=
  let reads := mode = .update
  match p.node path with
  | .error e => .error e
  | .ok (.absent path) =>
    .ok ({ p with files := p.files.put path [] }.openFile path reads (some mode))
  | .ok (.plain path) => .ok (p.openFile path reads (some mode))
  | .ok (.program _) => .error .denied
  | .ok .null => .ok (⟨.null, reads, true⟩, p)
  | .ok .full => .ok (⟨.full, reads, true⟩, p)
  | .ok .terminal => .error .noDevice
  | .ok .directory => .error .isDirectory
  | .ok (.descriptor n) => p.reopen n reads (some mode)

/-! ## Copying -/

/-- Whether a file is read through a handle to whose end the process itself would write. -/
def feedsItself (p : Process) (h : Handle) : Bool :=
  match h.medium, p.medium? 1 with
  | .file source cursor _, some (.file target _ _) =>
    source = target && p.position cursor < (p.files.contents source).size
  | _, _ => false

/-- What is to be copied for an operand, of which a dash stands for the input; or why it cannot be
copied. -/
def operandText (p : Process) (operand : Octets) : Except String (Octets × Process) := do
  let isInput := operand = ['-']
  let opened :=
    if isInput then ((p.handle? 0).map fun h => (h, p)).elim (.error .badDescriptor) .ok
    else p.openToRead operand
  let (h, p) ← opened.mapError FileError.text
  if p.feedsItself h then throw "input file is output file"
  (p.readHandle h).mapError FileError.text

/-- Where in its operands a copy is. -/
structure Copying where
  process : Process
  state : CopyState := {}
  /-- Whether an operand could not be copied. -/
  failed : Bool := false
  /-- Whether the output could not be written. -/
  stopped : Bool := false

/-- Writes a text to the output; the copy ends where it cannot be written. -/
def Copying.write (x : Copying) (text : Octets) : Copying :=
  match x.process.write 1 text with
  | .ok p => { x with process := p }
  | .error e =>
    let report := octets ("cat: write error: " ++ e.text ++ "\n")
    { x with process := x.process.writeAny 2 report, stopped := true }

/-- Copies one operand. -/
def Copying.next (o : CopyOptions) (x : Copying) (operand : Octets) : Copying :=
  if x.stopped then x
  else
    match x.process.operandText operand with
    | .ok (text, p) =>
      let (out, s) := copyText o x.state text
      { x with process := p, state := s }.write out
    | .error reason =>
      let report := octets "cat: " ++ shownName operand ++ octets (": " ++ reason ++ "\n")
      { x with process := x.process.writeAny 2 report, failed := true }

/-- Runs the program that copies texts. -/
def runCopy (p : Process) (args : List Octets) : Ending × Process :=
  match CopyOptions.ofArgs {} args with
  | .error text => (.exit 1, p.writeAny 2 text)
  | .ok (o, operands) =>
    if o.info then (.exit 0, p)
    else if (p.handle? 1).isNone then
      (.exit 1, p.writeAny 2 (octets "cat: standard output: Bad file descriptor\n"))
    else
      let operands := if operands.isEmpty then [['-']] else operands
      let x := operands.foldl (Copying.next o) { process := p }
      let x := if x.state.heldReturn ∧ !x.stopped then x.write ['\r'] else x
      let p :=
        if !x.stopped ∧ (p.handle? 0).isNone ∧ operands.contains ['-'] then
          x.process.writeAny 2 (octets "cat: closing standard input: Bad file descriptor\n")
        else x.process
      (.exit (if x.failed ∨ x.stopped then 1 else 0), p)

end Process

end ForeignCall
