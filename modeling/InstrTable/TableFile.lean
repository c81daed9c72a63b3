import InstrTable.Environment

/-!
Tables in files. A file may be given by its path, or by the target that its table is for.
-/

namespace InstrTable

/-- Why there is no table at a path. -/
inductive LoadError where
  | file (path : String) (e : Failure)
  | table (e : TableError)
  deriving DecidableEq, Repr

namespace LoadError

def message : LoadError → String
  | .file path .missing => s!"[Errno 2] No such file or directory: {quotedText path}"
  | .file _ (.value message) => message
  | .file _ (.malformed message) => message
  | .file _ (.other message) => message
  | .table e => e.message

/-- Whether commands report an error. They expect that a file is missing, that a value is unusable
and that a document is found wrong. -/
def isReported : LoadError → Bool
  | .file _ .missing => true
  | .file _ (.value _) => true
  | .file _ (.malformed _) => false
  | .file _ (.other _) => false
  | .table (.invalid _ _) => true
  | .table (.unreadable _) => false

end LoadError

namespace Table

variable (env : Environment) (path : String)

/-- What is read from the document at a path. -/
def readAt {α : Type} (ofDocument : Validator → Document → String → Except TableError α) :
    Except LoadError α := do
  let d ← (env.document path).mapError (.file path)
  (ofDocument env.validate d path).mapError .table

def dictionariesAt : Except LoadError Dictionaries := readAt env path Dictionaries.ofDocument

def entriesAt : Except LoadError (List Entry) := readAt env path entriesOf

/-- The table at a path. -/
def load : Except LoadError Table := do
  return { dictionaries := ← dictionariesAt env path, entries := ← entriesAt env path }

/-- The dictionaries in a file if one is given, else those of a target, else those of x86. -/
def findDictionaries (file target : String) : Except LoadError Dictionaries :=
  if file ≠ "" then dictionariesAt env (Path.normal file)
  else if target ≠ "" ∧ env.hasFile (env.builtin target) then
    dictionariesAt env (env.builtin target)
  else dictionariesAt env (env.builtin "x86")

end Table

end InstrTable
