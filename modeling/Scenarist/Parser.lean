import Scenarist.Config
import Scenarist.Diagnostic.Report
import Scenarist.Document.Load
import Scenarist.Document.OfTree
import Scenarist.Gherkin.Grammar
import Scenarist.Structure.Walker

/-!
# Parsing feature files

A grammar turns text into the tree of a document, or reports where it fails. The report is brought
into one form, in which it names a line with content, and a parser sorts it by what stands there.
-/

namespace Scenarist

open Text

/-- Turns the text of a file in a language into the tree of a document. -/
abbrev GrammarEngine := List Char → String → Except EngineFailure Json

/-- Reads a text in a dialect, or reports why it is no feature file. -/
abbrev FeatureReader := Dialect → List Char → Except String Gherkin.Feature

namespace GrammarEngine

/-- The line and the column of the character at an index. -/
def position (s : List Char) (index : Nat) : Location :=
  let before := s.take index
  let column := (before.reverse.takeWhile (· != '\n')).length + 1
  ⟨before.count '\n' + 1, column⟩

/-- The report of a text that does not fit at a place. What was expected there is not listed. -/
def report (l : Location) : String := s!"Error at {l.line}:{l.column}, expected: <engine>"

/-- The grammar of feature files. -/
def readStandard : FeatureReader := fun d s =>
  (Gherkin.readFeature d s).mapError fun index => report (position s index)

/-- Moves a place on a blank line, on a comment or behind the text back to the last line with
content. -/
def settle (t : SourceText) (l : Location) : Location :=
  match t.contentLine? l.line with
  | some n => if n = l.line then l else t.startOf n
  | none => l

/-- The failure that a report tells of. -/
def reportedFailure (t : SourceText) (report : String) : EngineFailure :=
  match Diagnostic.place? report with
  | none => ⟨report, []⟩
  | some l =>
    let l := settle t l
    .at_ l (Diagnostic.expectation report) (String.ofList (trim (t.lineAt l.line)))

/-- The violation of the order of blocks that is to blame for a rejected text. Only English files
are checked for one. -/
def violation? (t : SourceText) (language : String) : Option Structure.Violation :=
  if language = "en" then Structure.firstViolation t else none

/-- The failure of a text that a grammar rejects with a report. A violation of the order of blocks
comes first. -/
def locateFailure (t : SourceText) (language report : String) : EngineFailure :=
  match violation? t language with
  | some v => v.failure
  | none => reportedFailure t report

def unsupported (line : Nat) (language : String) : EngineFailure :=
  let name := quoted language
  ⟨"unsupported language " ++ name ++ ": UnsupportedLanguage(" ++ name ++ ")", [⟨line, 1⟩]⟩

/-- A text whose last line ends in a line feed. -/
def terminated (source : List Char) : List Char :=
  if source.getLast? = some '\n' then source else source ++ ['\n']

/-- The lines of a text that a grammar reads. -/
def scan (source : List Char) : SourceText := .ofText (terminated source)

/-- The language that a file asks for, or else the one that is configured. -/
def languageOf (t : SourceText) (configured : String) : String :=
  match t.language? with
  | some (_, name) => String.ofList name
  | none => configured

/-- The line that asks for a language. -/
def languageLine (t : SourceText) : Nat := (t.language?.map (·.1)).getD 1

/-- The engine of a grammar, for the languages that have a dialect. -/
def ofReader (read : FeatureReader) : GrammarEngine := fun source configured =>
  let t := scan source
  let language := languageOf t configured
  match Dialect.ofName? language with
  | none => .error (unsupported (languageLine t) language)
  | some d =>
    match read d (terminated source) with
    | .error report => .error (locateFailure t language report)
    | .ok f => .ok (Document.ofTree t language f).toJson

def standard : GrammarEngine := ofReader readStandard

end GrammarEngine

/-- A text that is no feature file. -/
structure GrammarFault where
  kind : ParseErrorKind
  message : String
  line : Nat
  lineContent : String
  filename : String
  engine : EngineFailure
  deriving DecidableEq, Repr

/-- The whole report of a fault. -/
def GrammarFault.display (f : GrammarFault) : String :=
  f.kind.name ++ "Error: " ++ f.message ++ "\nLine number: " ++ toString f.line ++ "\nLine: " ++
    f.lineContent ++ "\nFile: " ++ f.filename

/-- Why a file does not parse. -/
inductive ParseFault
  /-- The file cannot be read. -/
  | unreadable (path : String)
  | decode (path : String) (encoding : Encoding) (fault : Utf8Fault)
  | grammar (fault : GrammarFault)
  /-- The tree of the grammar is no document. -/
  | document (filename : String) (fault : LoadFault)
  deriving DecidableEq, Repr

def ParseFault.message : ParseFault → String
  | unreadable path => "failed to read " ++ path
  | decode path encoding fault =>
    "failed to decode " ++ path ++ " as " ++ encoding.name ++ ": " ++ fault.message
  | grammar fault => fault.display
  | document filename fault =>
    "malformed document tree for " ++ filename ++ ": " ++ fault.message

/-- A parser of feature files. -/
structure FeatureParser where
  config : ParserConfig
  engine : GrammarEngine

namespace FeatureParser

def ofConfig (config : ParserConfig) : FeatureParser := ⟨config, GrammarEngine.standard⟩

/-- A line of a text, without the returns at its end. -/
def sourceLine (s : List Char) : Nat → List Char
  | 0 => []
  | n + 1 => ((Source.linesOf s)[n]?).getD []

/-- The fault of a text that the grammar rejects. -/
def faultOf (source : List Char) (filename : String) (failure : EngineFailure) : GrammarFault :=
  let sorted := Diagnostic.classify failure.message
  let line := failure.firstLine
  { kind := sorted.1
    message := sorted.2
    line
    lineContent := String.ofList (sourceLine source line)
    filename
    engine := failure }

theorem kind_faultOf (source : List Char) (filename : String) (failure : EngineFailure) :
    (faultOf source filename failure).kind = (Diagnostic.classify failure.message).1 := by
  rw [faultOf]

/-- Parses the text of a file. -/
def parse (p : FeatureParser) (source : List Char) (filename : String) :
    Except ParseFault Document :=
  match p.engine source p.config.language with
  | .error failure => .error (.grammar (faultOf source filename failure))
  | .ok tree => (Load.document tree.draft).mapError (.document filename)

/-- Parses the bytes of a file. -/
def parseBytes (p : FeatureParser) (bytes : List Nat) (path : String) :
    Except ParseFault Document :=
  match p.config.encoding.decode bytes with
  | .error fault => .error (.decode path p.config.encoding fault)
  | .ok text => p.parse text path

end FeatureParser

end Scenarist
