import LineBasic.Folder
import LineBasic.Settings

/-!
# The log book

Where trace records go. A log book is kept at one level, on the error stream
and, if a file is set, in that file too. Setting it up anew replaces both and
empties the file.
-/
namespace LineBasic

structure LogBook where
  level : Level
  file : Option Path

namespace LogBook

def name : String := "subaruu"

/-- The name of the log file. An empty name is none. -/
def fileName? (settings : Settings) : Option Text :=
  settings.logFile.filter fun name => !name.isEmpty

def configure (settings : Settings) (folder : Folder) : Except Folder.Fault (LogBook × Folder) :=
  match fileName? settings with
  | none => .ok (⟨settings.level, none⟩, folder)
  | some name =>
      let path := Path.ofText name
      (folder.create path).map fun folder => (⟨settings.level, some path⟩, folder)

/-- The handlers of the log: the error stream, then the file. -/
def handlers (book : LogBook) : List String :=
  match book.file with
  | none => ["RichHandler"]
  | some _ => ["RichHandler", "FileHandler"]

/-- What records add to the log file. -/
def lines (book : LogBook) (records : List Record) : String :=
  String.join ((records.filter fun record => book.level.takes record.level).map Record.line)

def write (book : LogBook) (records : List Record) (folder : Folder) : Folder :=
  match book.file with
  | none => folder
  | some path => folder.append path (Source.encode (book.lines records).toList)

end LogBook

end LineBasic
