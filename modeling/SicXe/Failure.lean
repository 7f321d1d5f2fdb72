/-
This file holds the ways in which a run of the assembler fails, and what a person is told.
-/

import SicXe.Catalog.Basic
import SicXe.Files.Basic
import SicXe.Text.ControlSequence

namespace SicXe

inductive Failure where
  | assembly (error : AssemblyError)
  | catalog (fault : Catalog.Fault)
  | malformedPath
  | unreadable (path : Text) (error : FileError)
  | undecodable (fault : Text.Utf8Fault)
  | unwritable (path : Text) (error : FileError)
  | nothingAssembled
  deriving DecidableEq, Repr

/-- What a person is told about a failure, by the kind of help that it needs. -/
inductive Complaint where
  | source (diagnostic : Diagnostic)
  | resource (path : Text) (reason : String)
  | tool (message : String)
  | usage (message : String)
  | access (message : String)
  | internal (message : String)
  deriving DecidableEq, Repr

namespace Complaint

def message : Complaint → String
  | source diagnostic => diagnostic.render
  | resource path "" => s!"cannot read '{String.ofList path}'"
  | resource path reason => s!"cannot read '{String.ofList path}': {reason}"
  | tool message | usage message | access message | internal message => message

/-- One for a program or a catalog with errors, two for wrong arguments and files, three for
all else. -/
def exitCode : Complaint → Nat
  | source _ | tool _ => 1
  | resource .. | usage _ | access _ => 2
  | internal _ => 3

/-- The message with what stands before it; the activity is named before errors of the tool. -/
def announcement (activity : Option String) (complaint : Complaint) : String :=
  match complaint with
  | source _ => complaint.message
  | internal message => s!"Internal error: {message}"
  | tool message =>
    match activity with
    | none | some "" => s!"Error: {message}"
    | some name => s!"{name} error: {message}"
  | resource .. | usage _ | access _ => s!"Error: {complaint.message}"

/-- The announcement as it is shown. -/
def report (activity : Option String) (complaint : Complaint) : String :=
  Text.plainLine (complaint.announcement activity)

/-- The complaint is about the program, its catalog or its files. -/
def isExpected : Complaint → Bool
  | source _ | resource .. | tool _ => true
  | usage _ | access _ | internal _ => false

end Complaint

/-- A file error with its number and the path. -/
def FileError.message (error : FileError) (path : Text) : String :=
  s!"[Errno {error.code}] {error.reason}: {String.ofList (Text.quoted path)}"

namespace Failure

def complaint : Failure → Complaint
  | assembly (.source error) => .source error.diagnostic
  | assembly error => .internal error.message
  | catalog fault => .tool fault.message
  | malformedPath => .internal "embedded null byte"
  | unreadable path error => .resource path error.reason
  | undecodable fault => .internal fault.message
  | unwritable path error =>
    if error = .missing ∨ error = .denied then .access (error.message path)
    else .internal (error.message path)
  | nothingAssembled => .internal "nothing has been assembled yet"

def message (failure : Failure) : String :=
  failure.complaint.message

end Failure

end SicXe
