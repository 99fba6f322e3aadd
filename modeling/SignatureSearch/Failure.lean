import SignatureSearch.Query

/-! Failures. A failure has a cause and the activities during which it happened, the outermost
first. -/

namespace SignatureSearch

inductive FileFault
  | notFound
  | present
  | notDirectory
  | isDirectory
  | nameTooLong
  | notUtf8
  deriving DecidableEq, Repr

def FileFault.message : FileFault → String
  | notFound => "No such file or directory (os error 2)"
  | present => "File exists (os error 17)"
  | notDirectory => "Not a directory (os error 20)"
  | isDirectory => "Is a directory (os error 21)"
  | nameTooLong => "File name too long (os error 36)"
  | notUtf8 => "stream did not contain valid UTF-8"

inductive DatabaseFault
  | noTable (name : String)
  | locked
  /-- The file is no longer in its place. -/
  | moved
  | malformed
  | cannotOpen (path : String)
  | notDatabase
  deriving DecidableEq, Repr

namespace DatabaseFault

def detail : DatabaseFault → String
  | noTable name => "no such table: " ++ name
  | locked => "database is locked"
  | moved => "attempt to write a readonly database"
  | malformed => "database disk image is malformed"
  | cannotOpen path => "unable to open database file: " ++ path
  | notDatabase => "file is not a database"

/-- The number of the fault and what it means. -/
def code : DatabaseFault → Nat × String
  | noTable _ => (1, "SQL error or missing database")
  | locked => (5, "The database file is locked")
  | moved => (8, "Attempt to write a readonly database")
  | malformed => (11, "The database disk image is malformed")
  | cannotOpen _ => (14, "Unable to open the database file")
  | notDatabase => (26, "File opened that is not a database file")

def message (fault : DatabaseFault) : String :=
  fault.detail ++ ": Error code " ++ toString fault.code.1 ++ ": " ++ fault.code.2

end DatabaseFault

inductive Cause
  | noIndex
  | missingPath (path : String)
  | malformedJson
  | malformedSettings
  | file (fault : FileFault)
  | database (fault : DatabaseFault)
  deriving DecidableEq, Repr

def Cause.message : Cause → String
  | noIndex => "Index not found. Run 'fsindex index <PATH>' to build it first."
  | missingPath path => "Catalog path does not exist: " ++ path
  | malformedJson => "malformed JSON"
  | malformedSettings => "malformed settings"
  | file fault => fault.message
  | database fault => fault.message

/-- A cause and the activities around it. -/
structure Failure where
  context : List String
  cause : Cause
  deriving DecidableEq, Repr

namespace Failure

def ofCause (cause : Cause) : Failure := ⟨[], cause⟩

def within (activity : String) (f : Failure) : Failure := ⟨activity :: f.context, f.cause⟩

/-- The activities and the cause, separated by colons. -/
def message (f : Failure) : String := ": ".intercalate (f.context ++ [f.cause.message])

end Failure

/-- Names the activity during which a computation failed. -/
def during {α : Type} (activity : String) (result : Except Failure α) : Except Failure α :=
  match result with
  | .ok a => .ok a
  | .error f => .error (f.within activity)

def failWith {α : Type} (cause : Cause) : Except Failure α := .error (.ofCause cause)

inductive SearchError
  | parse (error : ParseError)
  /-- The query has a name and a signature. -/
  | conflict
  | storage (failure : Failure)
  deriving DecidableEq, Repr

namespace SearchError

def message : SearchError → String
  | parse error => error.message
  | conflict => "can't search by name and prototype yet"
  | storage failure => failure.message

/-- Whether the text of the query is at fault. -/
def isQueryError : SearchError → Bool
  | storage _ => false
  | _ => true

end SearchError

end SignatureSearch
