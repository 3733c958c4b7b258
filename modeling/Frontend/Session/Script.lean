import Frontend.Session.Basic

set_option autoImplicit false

namespace Frontend

inductive Step where
  | command (order : Command)
  | repetition (times : Nat) (body : List Step)

inductive StepResult where
  | reply (answer : Reply)
  -- How many results were errors, and the last result.
  | repetition (errors : Nat) (last : Option StepResult)

def StepResult.isError : StepResult → Bool
  | .reply answer => answer.isError
  | .repetition _ _ => false

structure Tally where
  errors : Nat := 0
  last : Option StepResult := none

def Tally.add (tally : Tally) (result : StepResult) : Tally where
  errors := if result.isError then tally.errors + 1 else tally.errors
  last := some result

namespace Step

def repeatedly {ε σ : Type} (act : σ → Except ε σ) : Nat → σ → Except ε σ
  | 0, state => .ok state
  | times + 1, state =>
    match act state with
    | .error error => .error error
    | .ok state => repeatedly act times state

mutual

def run : Step → Session → Except Halt (StepResult × Session)
  | .command order, session =>
    match session.exec order with
    | .error halt => .error halt
    | .ok (reply, session) => .ok (.reply reply, session)
  | .repetition times body, session =>
    match repeatedly (fun state => runBody body state) times (({} : Tally), session) with
    | .error halt => .error halt
    | .ok (tally, session) => .ok (.repetition tally.errors tally.last, session)

def runBody : List Step → Tally × Session → Except Halt (Tally × Session)
  | [], state => .ok state
  | step :: steps, (tally, session) =>
    match run step session with
    | .error halt => .error halt
    | .ok (result, session) => runBody steps (tally.add result, session)

end

structure Transcript where
  results : Array StepResult := #[]
  halt : Option Halt := none

def runAll (results : Array StepResult) : List Step → Session → Transcript
  | [], _ => { results := results }
  | step :: steps, session =>
    match run step session with
    | .error halt => { results := results, halt := some halt }
    | .ok (result, session) => runAll (results.push result) steps session

end Step

def runScript (options : Options) (steps : List Step) : Step.Transcript :=
  Step.runAll #[] steps (.start options)

end Frontend
