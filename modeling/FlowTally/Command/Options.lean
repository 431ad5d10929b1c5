import FlowTally.Label
import FlowTally.Text.Natural

/-!
# Command line options

Options have long names, some of them a letter as well. A value stands behind
an equals sign or in the next argument, and behind a letter also without a
sign. Every option is given at most once. A graph comes either from an export
or from a database.
-/

namespace FlowTally

structure Options where
  graph : Option String := none
  sqlite : Option String := none
  config : Option String := none
  output : Option String := none
  workers : Option Nat := none
  batchSize : Option Nat := none
  labelStyle : Option LabelStyle := none
  vocabulary : Option String := none
  frozen : Bool := false
  dumpConfig : Bool := false
deriving DecidableEq, Repr, Inhabited

namespace Options

inductive Name where
  | graph
  | sqlite
  | config
  | output
  | workers
  | batchSize
  | labelStyle
  | vocabulary
  | frozen
  | dumpConfig
  | help
deriving DecidableEq, Repr

namespace Name

def ofLong? (name : String) : Option Name :=
  match name with
  | "graph" => some .graph
  | "sqlite" => some .sqlite
  | "config" => some .config
  | "output" => some .output
  | "workers" => some .workers
  | "batch-size" => some .batchSize
  | "label-style" => some .labelStyle
  | "vocabulary" => some .vocabulary
  | "frozen" => some .frozen
  | "dump-config" => some .dumpConfig
  | "help" => some .help
  | _ => none

def ofLetter? (letter : Char) : Option Name :=
  match letter with
  | 'c' => some .config
  | 'o' => some .output
  | 'w' => some .workers
  | 'h' => some .help
  | _ => none

def long : Name → String
  | .graph => "graph"
  | .sqlite => "sqlite"
  | .config => "config"
  | .output => "output"
  | .workers => "workers"
  | .batchSize => "batch-size"
  | .labelStyle => "label-style"
  | .vocabulary => "vocabulary"
  | .frozen => "frozen"
  | .dumpConfig => "dump-config"
  | .help => "help"

def takesValue : Name → Bool
  | .frozen | .dumpConfig | .help => false
  | _ => true

end Name

inductive Fault where
  | unknown (argument : String)
  | noValue (name : Name)
  | extraValue (name : Name)
  | badValue (name : Name) (value : String)
  | repeated (name : Name)
  | store
  | frozenAlone
deriving DecidableEq, Repr

def Fault.message : Fault → String
  | .unknown argument => s!"unexpected argument '{argument}'"
  | .noValue name => s!"a value is required for '--{name.long}'"
  | .extraValue name => s!"'--{name.long}' takes no value"
  | .badValue name value => s!"invalid value '{value}' for '--{name.long}'"
  | .repeated name => s!"the argument '--{name.long}' cannot be used multiple times"
  | .store => "exactly one of '--graph' and '--sqlite' is required"
  | .frozenAlone => "'--frozen' requires '--vocabulary'"

inductive Request where
  | help
  | run (options : Options)
deriving DecidableEq, Repr

def setPath (name : Name) (old : Option String) (value : String) : Except Fault (Option String) :=
  if old.isSome then .error (.repeated name)
  else if value = "" then .error (.badValue name value)
  else .ok (some value)

def setCount (name : Name) (old : Option Nat) (value : String) : Except Fault (Option Nat) :=
  if old.isSome then .error (.repeated name)
  else match Text.Natural.read Text.Natural.bound64 value.toList with
    | .ok n => .ok (some n)
    | .error _ => .error (.badValue name value)

def setLabelStyle (old : Option LabelStyle) (value : String) : Except Fault (Option LabelStyle) :=
  if old.isSome then .error (.repeated .labelStyle)
  else match LabelStyle.parse value with
    | .ok style => .ok (some style)
    | .error _ => .error (.badValue .labelStyle value)

def setFlag (name : Name) (old : Bool) : Except Fault Bool :=
  if old then .error (.repeated name) else .ok true

def setValue (o : Options) (name : Name) (value : String) : Except Fault Options :=
  match name with
  | .graph => (setPath name o.graph value).map fun v => { o with graph := v }
  | .sqlite => (setPath name o.sqlite value).map fun v => { o with sqlite := v }
  | .config => (setPath name o.config value).map fun v => { o with config := v }
  | .output => (setPath name o.output value).map fun v => { o with output := v }
  | .workers => (setCount name o.workers value).map fun v => { o with workers := v }
  | .batchSize => (setCount name o.batchSize value).map fun v => { o with batchSize := v }
  | .labelStyle => (setLabelStyle o.labelStyle value).map fun v => { o with labelStyle := v }
  | .vocabulary => (setPath name o.vocabulary value).map fun v => { o with vocabulary := v }
  | .frozen | .dumpConfig | .help => .error (.extraValue name)

def setSwitch (o : Options) (name : Name) : Except Fault Options :=
  match name with
  | .frozen => (setFlag name o.frozen).map fun v => { o with frozen := v }
  | .dumpConfig => (setFlag name o.dumpConfig).map fun v => { o with dumpConfig := v }
  | _ => .error (.noValue name)

inductive Argument where
  /-- Two dashes alone: no option follows. -/
  | options
  | long (name : String) (value : Option String)
  | letters (cs : List Char)
  | plain (text : String)
deriving DecidableEq, Repr

def splitEquals (cs : List Char) : List Char × Option (List Char) :=
  match cs.dropWhile (· != '=') with
  | _ :: after => (cs.takeWhile (· != '='), some after)
  | [] => (cs, none)

def Argument.ofText (text : String) : Argument :=
  match text.toList with
  | ['-', '-'] => .options
  | '-' :: '-' :: cs =>
    let (name, value) := splitEquals cs
    .long (String.ofList name) (value.map String.ofList)
  | '-' :: c :: cs => .letters (c :: cs)
  | _ => .plain text

inductive Progress where
  | help
  | going (o : Options) (pending : Option Name)
deriving DecidableEq, Repr

def takeName (o : Options) (name : Name) (value : Option String) : Except Fault Progress :=
  match name.takesValue, value with
  | true, some value => (o.setValue name value).map (.going · none)
  | true, none => .ok (.going o (some name))
  | false, some _ => .error (.extraValue name)
  | false, none => if name = .help then .ok .help else (o.setSwitch name).map (.going · none)

/-- Takes options by their letters; the letters behind one that takes a value are its value. -/
def takeLetters (o : Options) : List Char → Except Fault Progress
  | [] => .ok (.going o none)
  | c :: rest =>
    match Name.ofLetter? c with
    | none => .error (.unknown (String.ofList ['-', c]))
    | some .help => .ok .help
    | some name =>
      match rest with
      | [] => takeName o name none
      | '=' :: value => takeName o name (some (String.ofList value))
      | value => takeName o name (some (String.ofList value))

def takeArgument (o : Options) : Argument → Except Fault Progress
  | .options => .ok (.going o none)
  | .long name value =>
    match Name.ofLong? name with
    | none => .error (.unknown name)
    | some name => takeName o name value
  | .letters cs => takeLetters o cs
  | .plain text => .error (.unknown text)

/-- Exactly one graph, and a frozen vocabulary only with a vocabulary. -/
def finish (o : Options) : Except Fault Request :=
  if o.graph.isSome = o.sqlite.isSome then .error .store
  else if o.frozen ∧ o.vocabulary = none then .error .frozenAlone
  else .ok (.run o)

/-- Reads arguments; an awaited value is a plain argument. -/
def readFrom (o : Options) (pending : Option Name) : List String → Except Fault Request
  | [] =>
    match pending with
    | some name => .error (.noValue name)
    | none => o.finish
  | text :: rest =>
    match pending, Argument.ofText text with
    | some name, .plain value => (o.setValue name value).bind fun o => readFrom o none rest
    | some name, _ => .error (.noValue name)
    | none, .options =>
      match rest with
      | [] => o.finish
      | text :: _ => .error (.unknown text)
    | none, argument =>
      match takeArgument o argument with
      | .error fault => .error fault
      | .ok .help => .ok .help
      | .ok (.going o pending) => readFrom o pending rest

def read (arguments : List String) : Except Fault Request := readFrom {} none arguments

end Options

end FlowTally
