import VirtualLooper.Value.Written

/-! # Failures

Everything that can go wrong, by cause.  Each cause belongs to one class of errors and has one text.
Misuse of a looper is its own family of classes, `isMisuse`: a call at the wrong moment or with an
argument out of range.  `thrown` is what handler code fails with of its own accord.
-/

namespace VirtualLooper

/-- The classes of errors.  Those that only handler code throws have nothing but a name. -/
inductive ErrorClass
  | usage | illegalState | invalidArgument
  | dispatchAssertion | assertion
  | value | type | member | overflow | lookup | key | index | runtime | recursion
  | endOfIteration
  | yaml | missingFile
  | other (name : String)
  deriving DecidableEq, Repr

namespace ErrorClass

def name : ErrorClass → String
  | usage => "UsageError"
  | illegalState => "IllegalStateError"
  | invalidArgument => "InvalidArgumentError"
  | dispatchAssertion => "DispatchAssertionError"
  | assertion => "AssertionError"
  | value => "ValueError"
  | type => "TypeError"
  | member => "AttributeError"
  | overflow => "OverflowError"
  | lookup => "LookupError"
  | key => "KeyError"
  | index => "IndexError"
  | runtime => "RuntimeError"
  | recursion => "RecursionError"
  | endOfIteration => "StopIteration"
  | yaml => "YAMLError"
  | missingFile => "FileNotFoundError"
  | other name => name

/-- The classes with a meaning of their own that handler code can throw by name. -/
def throwable : List ErrorClass :=
  [usage, illegalState, invalidArgument, assertion, value, type, member, overflow, lookup, key,
    index, runtime, recursion, endOfIteration, missingFile]

def systemName : String := "OSError"

def systemAliases : List String := ["IOError", "EnvironmentError"]

/-- The name of the class of errors about a folder where a file was expected. -/
def folderName : String := "IsADirectoryError"

/-- The names of all classes of errors of the system but that of missing files. -/
def systemNames : List String :=
  [systemName, folderName, "BlockingIOError", "BrokenPipeError", "ChildProcessError",
    "ConnectionAbortedError", "ConnectionError", "ConnectionRefusedError", "ConnectionResetError",
    "FileExistsError", "InterruptedError", "NotADirectoryError", "PermissionError",
    "ProcessLookupError", "TimeoutError"]

def furtherNames : List String :=
  ["ArithmeticError", "BaseException", "BufferError", "BytesWarning", "DeprecationWarning",
    "EOFError", "EncodingWarning", "Exception", "FloatingPointError", "FutureWarning",
    "GeneratorExit", "ImportError", "ImportWarning", "IndentationError", "KeyboardInterrupt",
    "MemoryError", "ModuleNotFoundError", "NameError", "NotImplementedError",
    "PendingDeprecationWarning", "ReferenceError", "ResourceWarning", "RuntimeWarning",
    "StopAsyncIteration", "SyntaxError", "SyntaxWarning", "SystemError", "SystemExit", "TabError",
    "UnboundLocalError", "UnicodeError", "UnicodeWarning", "UserWarning", "Warning",
    "ZeroDivisionError"]

def ofName? (n : String) : Option ErrorClass :=
  (throwable.find? fun c => c.name = n).or <|
    if systemAliases.contains n then some (other systemName)
    else if systemNames.contains n || furtherNames.contains n then some (other n)
    else none

/-- Is the class one of misuse of a looper? -/
def isMisuse : ErrorClass → Bool
  | usage | illegalState | invalidArgument => true
  | _ => false

/-- Is the class one of errors about documents and files?  Reports name only their class. -/
def isExternal : ErrorClass → Bool
  | yaml | missingFile => true
  | other name => systemNames.contains name
  | _ => false

/-- The general classes that a class belongs to, among the four that reports tell apart. -/
def families : ErrorClass → List ErrorClass
  | usage => [usage]
  | illegalState => [usage, runtime]
  | invalidArgument => [usage, value]
  | dispatchAssertion | assertion => [assertion]
  | value | other "UnicodeError" | other "UnicodeEncodeError" => [value]
  | runtime | recursion | other "NotImplementedError" => [runtime]
  | _ => []

end ErrorClass

inductive Quantity
  | startTime | amount | delay | dueTime
  deriving DecidableEq, Repr

def Quantity.name : Quantity → String
  | startTime => "start time"
  | amount => "amount"
  | delay => "delay"
  | dueTime => "due time"

inductive Mismatch
  | sequence (expected : List Value)
  | unexpected
  | unwanted (tag : Value) (found : Nat)
  | order (expected : List Value)
  | wrongCount (tag expected : Value) (found : Nat)
  deriving Repr

/-- A failure, by its cause. -/
inductive Failure
  /-- A time was given as something other than an integer. -/
  | notAnInt (what : Quantity) (got : Value.Kind)
  | negative (what : Quantity) (got : Int)
  /-- A message had neither a target nor a callback. -/
  | noReceiver
  | alreadyRunning
  /-- A synchronous dispatch was asked for during auto-dispatch. -/
  | busy (call : String)
  | notRunning
  | nothingDispatched
  /-- A worker was asked to wait for itself. -/
  | joinSelf
  /-- An integer was added to something that takes none. -/
  | cannotAdd (left : Value.Kind)
  | tooLargeForFloat
  | cannotCompare (relation : String) (left right : Value.Kind)
  /-- A wait was longer than a clock of nanoseconds can hold. -/
  | waitTooLong (given : Value.Kind)
  | unknownSettings (names : List Value)
  | settingsNotMapping (got : Value.Kind)
  | notIterable (got : Value.Kind)
  | unhashable (got : Value.Kind)
  /-- A value was used as a mapping that is none. -/
  | notMapping (got : Value.Kind) (used : String)
  /-- Records were asked for, in one way or another, where none are kept. -/
  | noRecords (used : String)
  | invalidDuration (got : Value)
  | fractionalDuration (got : Value)
  | notNumeric (text : Text)
  | infiniteDuration
  | undefinedDuration
  | missingFields (names : List String)
  | unknownField (name : Text)
  /-- A field was given under something other than a text. -/
  | unnamedField
  | badInteger (text : Text) (base : Nat)
  | emptyInteger
  /-- An integer had more digits than may be read. -/
  | tooManyDigits (digits : Nat)
  /-- An integer has more digits than may be written. -/
  | tooLongToWrite
  | badTruthWord (word : Text)
  /-- A part of a time was out of its range. -/
  | outOfRange (part : TimePart)
  /-- A text was given as a time that is none. -/
  | noTime
  /-- A time was looked for in something other than a text. -/
  | noTimeText (got : Value.Kind)
  /-- A code point beyond the last one was asked for. -/
  | noCharacter (code : Nat)
  /-- A scalar was looked for inside itself. -/
  | endlessScalar
  /-- Two collections that contain themselves were compared without end. -/
  | endlessComparison
  /-- The end of an iteration left a block of auto-dispatch. -/
  | strayEnd
  /-- Something was looked up by a key that is not there. -/
  | missingKey (key : Value)
  | beyondEnd
  /-- The arguments of a check were given as something that has no elements. -/
  | notArguments (call : String) (got : Value.Kind)
  | mismatch (found : Mismatch) (tags : List Value)
  /-- The place of a document was given as something other than a text. -/
  | notPath (got : Value.Kind)
  /-- The place of a document held code points of which names of files cannot be made: so many, from
  the given position on. -/
  | unencodable (first : Nat) (code count : Nat)
  /-- The place of a document held a character that ends names of files. -/
  | endedName
  /-- The place of a document was a folder. -/
  | folder
  /-- The place of a document had a name that is too long. -/
  | longName
  | malformedDocument
  | missingFile
  /-- Something was to be thrown that is no class of errors. -/
  | noClass (name : String)
  /-- A failure was to be made from one argument where its class takes more. -/
  | tooFewArguments (maker : String) (needed : Nat)
  /-- A mismatch was to be thrown without the tags. -/
  | noTags
  | thrown (errorClass : ErrorClass) (given : Value)
  deriving Repr

def Mismatch.message : Mismatch → Text
  | sequence expected => "Expected dispatch sequence " ++ (Value.list expected).written
  | unexpected => "Expected no dispatches"
  | unwanted tag found =>
    "Expected " ++ tag.written ++ " NOT to be dispatched, but it was dispatched " ++
      toString found ++ " time(s)"
  | order expected => "Expected dispatch order " ++ (Value.list expected).written
  | wrongCount tag expected found =>
    "Expected " ++ tag.written ++ " to be dispatched " ++ expected.shown ++
      " time(s), but it was dispatched " ++ toString found ++ " time(s)"

/-- Are all integers that the text of the mismatch shows short enough to be written? -/
def Mismatch.isWritable : Mismatch → Bool
  | sequence expected | order expected => Value.areWritable expected
  | unexpected => true
  | unwanted tag _ => tag.isWritable
  | wrongCount tag expected _ => tag.isWritable && expected.isWritable

namespace Failure

def signedLimit : Nat := Nat.pow 2 31

def errorClass : Failure → ErrorClass
  | notAnInt .. | negative .. | noReceiver => .invalidArgument
  | alreadyRunning | busy _ | notRunning | nothingDispatched => .illegalState
  | joinSelf => .runtime
  | cannotAdd _ | cannotCompare .. | settingsNotMapping _ | notIterable _ | unhashable _ => .type
  | missingFields _ | unknownField _ | unnamedField | notArguments .. | notPath _ => .type
  | tooLargeForFloat | waitTooLong _ | infiniteDuration => .overflow
  | unknownSettings _ | invalidDuration _ | fractionalDuration _ | notNumeric _ => .value
  | undefinedDuration | badInteger .. | tooManyDigits _ | tooLongToWrite | outOfRange _ => .value
  | notMapping .. | noRecords _ | noTime => .member
  | noTimeText _ => .type
  | emptyInteger => .index
  | badTruthWord _ => .key
  | noCharacter code => if code < signedLimit then .value else .overflow
  | endlessScalar | endlessComparison => .recursion
  | mismatch .. => .dispatchAssertion
  | strayEnd => .runtime
  | missingKey _ => .key
  | beyondEnd => .index
  | unencodable .. => .other "UnicodeEncodeError"
  | endedName => .value
  | folder => .other ErrorClass.folderName
  | longName => .other ErrorClass.systemName
  | malformedDocument => .yaml
  | missingFile => .missingFile
  | noClass _ => .member
  | tooFewArguments .. | noTags => .type
  | thrown c _ => c

def isMisuse (e : Failure) : Bool := e.errorClass.isMisuse

def quotedName (name : String) : String := Text.quoted name

/-- A list of quoted names: commas between them, and a conjunction in front of the last. -/
def enumerated : List String → String
  | [] => ""
  | [a] => quotedName a
  | [a, b] => quotedName a ++ " and " ++ quotedName b
  | names =>
    ", ".intercalate (names.dropLast.map quotedName) ++ ", and " ++
      quotedName (names.getLast?.getD "")

/-- The most characters of a quoted text that a message about an integer shows. -/
def excerptLength : Nat := 200

def excerpt (t : Text) : String := String.ofList (t.quoted.toList.take excerptLength)

def rangeComplaint : TimePart → String
  | .lead minutes =>
    "offset must be a timedelta strictly between -timedelta(hours=24) and timedelta(hours=24)" ++
      ", not " ++ Moment.spanWritten minutes ++ "."
  | .year n => "year " ++ toString n ++ " is out of range"
  | .month => "month must be in 1..12"
  | .day => "day is out of range for month"
  | .hour => "hour must be in 0..23"
  | .minute => "minute must be in 0..59"
  | .second => "second must be in 0..59"

def orderComplaint (relation : String) : (left right : Value.Kind) → String
  | .moment, .moment => "can't compare offset-naive and offset-aware datetimes"
  | .moment, .date => "can't compare datetime.datetime to datetime.date"
  | left, right =>
    "'" ++ relation ++ "' not supported between instances of '" ++ left.fullName ++ "' and '" ++
      right.fullName ++ "'"

def digitComplaint : String :=
  "Exceeds the limit (" ++ toString Value.digitLimit ++ " digits) for integer string conversion"

def digitAdvice : String := "; use sys.set_int_max_str_digits() to increase the limit"

def message : Failure → Text
  | notAnInt what got => what.name ++ " must be an int, got " ++ got.name
  | negative what got => what.name ++ " must be non-negative, got " ++ toString got
  | noReceiver => "message has neither a target nor a callback"
  | alreadyRunning => "start_auto_dispatch called while auto-dispatch is running"
  | busy call => call ++ " called while auto-dispatch is running"
  | notRunning => "stop_auto_dispatch called without start_auto_dispatch"
  | nothingDispatched => "stop_auto_dispatch called before any messages were dispatched"
  | joinSelf => "cannot join current thread"
  | cannotAdd left =>
    match left with
    | .str | .list | .tuple =>
      "can only concatenate " ++ left.name ++ " (not \"int\") to " ++ left.name
    | _ => "unsupported operand type(s) for +: '" ++ left.fullName ++ "' and 'int'"
  | tooLargeForFloat => "int too large to convert to float"
  | cannotCompare relation left right => orderComplaint relation left right
  | waitTooLong given =>
    match given with
    | .float => "timestamp out of range for platform time_t"
    | _ => "timestamp too large to convert to C _PyTime_t"
  | unknownSettings names => "Unknown looper settings: " ++ (Value.list names).written
  | settingsNotMapping got =>
    "mock_looper.core.config.LooperConfig() argument after ** must be a mapping, not " ++
      got.fullName
  | notIterable got => "'" ++ got.fullName ++ "' object is not iterable"
  | unhashable got => "unhashable type: '" ++ got.fullName ++ "'"
  | notMapping got used => "'" ++ got.fullName ++ "' object has no attribute '" ++ used ++ "'"
  | noRecords used => "'Handler' object has no attribute '" ++ used ++ "'"
  | invalidDuration got => "Invalid duration: " ++ got.written
  | fractionalDuration got =>
    "Duration is not a whole number of milliseconds: " ++ got.written
  | notNumeric text => "could not convert string to float: " ++ Text.quoted text
  | infiniteDuration => "cannot convert float infinity to integer"
  | undefinedDuration => "cannot convert float NaN to integer"
  | missingFields names =>
    "AssertionResult.__init__() missing " ++ toString names.length ++
      " required positional argument" ++ (if names.length = 1 then "" else "s") ++ ": " ++
      enumerated names
  | unknownField name =>
    "AssertionResult.__init__() got an unexpected keyword argument '" ++ name ++ "'"
  | unnamedField => "keywords must be strings"
  | badInteger text base =>
    "invalid literal for int() with base " ++ toString base ++ ": " ++ excerpt text
  | emptyInteger => "string index out of range"
  | tooManyDigits digits =>
    digitComplaint ++ ": value has " ++ toString digits ++ " digits" ++ digitAdvice
  | tooLongToWrite => digitComplaint ++ digitAdvice
  | badTruthWord word => Text.quoted word
  | outOfRange part => rangeComplaint part
  | noTime => "'NoneType' object has no attribute 'groupdict'"
  | noTimeText got => "expected string or bytes-like object, got '" ++ got.name ++ "'"
  | noCharacter code =>
    if code < signedLimit then "chr() arg not in range(0x110000)"
    else "Python int too large to convert to C int"
  | endlessScalar => "maximum recursion depth exceeded"
  | endlessComparison => "maximum recursion depth exceeded in comparison"
  | strayEnd => "generator raised StopIteration"
  | missingKey key => key.written
  | beyondEnd => "list index out of range"
  | unencodable first code count =>
    if count = 1 then
      "'utf-8' codec can't encode character '" ++ Text.codeEscape code ++ "' in position " ++
        toString first ++ ": surrogates not allowed"
    else
      "'utf-8' codec can't encode characters in position " ++ toString first ++ "-" ++
        toString (first + count - 1) ++ ": surrogates not allowed"
  | endedName => "embedded null byte"
  | folder => "folder"
  | longName => "long name"
  | notArguments call got =>
    "mock_looper.tools.asserter.DispatchAsserter." ++ call ++
      "() argument after * must be an iterable, not " ++ got.fullName
  | notPath got => "expected str, bytes or os.PathLike object, not " ++ got.name
  | mismatch found tags => found.message ++ ".  Dispatched: " ++ (Value.list tags).written
  | malformedDocument => "malformed document"
  | missingFile => "missing file"
  | noClass name => "module 'builtins' has no attribute '" ++ name ++ "'"
  | tooFewArguments maker needed =>
    maker ++ " takes exactly " ++ toString needed ++ " arguments (1 given)"
  | noTags =>
    "DispatchAssertionError.__init__() missing 1 required positional argument: 'tags'"
  | thrown c given => if c = .key then given.written else given.shown

/-- The names of classes of errors that are made from more than one argument, with what makes them
and how many it takes. -/
def makers : List (String × String × Nat) :=
  [("UnicodeDecodeError", "function", 5), ("UnicodeEncodeError", "function", 5),
    ("UnicodeTranslateError", "function", 4),
    ("BaseExceptionGroup", "BaseExceptionGroup.__new__()", 2),
    ("ExceptionGroup", "BaseExceptionGroup.__new__()", 2)]

/-- The failure that comes of throwing an error of a class by its name, made from one argument. -/
def ofName (name : String) (given : Value) : Failure :=
  match ErrorClass.ofName? name with
  | some c => thrown c given
  | none =>
    if name = ErrorClass.dispatchAssertion.name then noTags
    else
      match makers.lookup name with
      | some (maker, needed) => tooFewArguments maker needed
      | none => noClass name

/-- Are all integers that the text of the failure shows short enough to be written? -/
def isWritable : Failure → Bool
  | negative _ got => Value.isShort got
  | unknownSettings names => Value.areWritable names
  | mismatch found tags => found.isWritable && Value.areWritable tags
  | _ => true

/-- The failure, or the one that comes of it where its text cannot be written. -/
def orUnwritable (e : Failure) : Failure := if e.isWritable then e else tooLongToWrite

/-- The failure as a report quotes it: its class, and its text between quotes. -/
def quoted (e : Failure) : String :=
  e.errorClass.name ++ "(" ++ Text.quoted e.message ++ ")"

end Failure

end VirtualLooper
