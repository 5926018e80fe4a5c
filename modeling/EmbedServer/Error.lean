import EmbedServer.JitGuard
import EmbedServer.Lib.Ndarray
import EmbedServer.Lib.Text

/-!
# Errors: the `anyhow` chain of a failed request and its HTTP status (`error.rs`)

A worker error is a root cause under zero or more `.context(...)` texts.  The layers above look at
it in three ways, and all three are modelled: the outermost text (`display`), the whole chain
(`displayAlt`), and the type of a cause (`isTrtShapeRejected`).
-/

namespace EmbedServer

/-- `impl Display for ndarray::ShapeError` -/
def ShapeError.display : ShapeError → String
  | .outOfBounds => "ShapeError/OutOfBounds: out of bounds indexing"
  | .incompatibleShape => "ShapeError/IncompatibleShape: incompatible shapes"

/-- innermost cause: a text, a shape error, or a guard refusal -/
inductive RootCause where
  | message (text : String)
  | shape (e : ShapeError)
  | rejected (r : TrtJitRejection)
deriving DecidableEq, Repr

def RootCause.display : RootCause → String
  | .message text => text
  | .shape e => e.display
  | .rejected r => r.display

/-- an `anyhow::Error`, context texts outermost first -/
structure AnyError where
  contexts : List String
  root : RootCause
deriving DecidableEq, Repr

/-- one element of `err.chain()` -/
inductive Cause where
  | context (text : String)
  | root (c : RootCause)
deriving DecidableEq, Repr

/-- `downcast_ref::<TrtJitRejection>()` -/
def Cause.asRejection : Cause → Option TrtJitRejection
  | .root (.rejected r) => some r
  | _ => none

namespace AnyError

def msg (text : String) : AnyError := ⟨[], .message text⟩

/-- `anyhow::Error::new` -/
def ofRejection (r : TrtJitRejection) : AnyError := ⟨[], .rejected r⟩

def ofShape (e : ShapeError) : AnyError := ⟨[], .shape e⟩

def context (e : AnyError) (text : String) : AnyError := { e with contexts := text :: e.contexts }

def chain (e : AnyError) : List Cause := e.contexts.map .context ++ [.root e.root]

/-- `{e}`: the outermost text -/
def display (e : AnyError) : String := e.contexts.headD e.root.display

/-- `{e:#}`: the whole chain -/
def displayAlt (e : AnyError) : String := ": ".intercalate (e.contexts ++ [e.root.display])

end AnyError

/-- converts an `ort` error by its text -/
def ortErr (e : String) : AnyError := .msg e

def isTrtShapeRejected (e : AnyError) : Bool := e.chain.any fun c => c.asRejection.isSome

inductive AppError where
  | invalidRequest (msg : String)
  | serviceUnavailable (msg : String)
  | internal (msg : String)
deriving DecidableEq, Repr

namespace AppError

/-- status code of `into_response` -/
def status : AppError → Nat
  | .invalidRequest _ => 400
  | .serviceUnavailable _ => 503
  | .internal _ => 500

/-- `impl From<anyhow::Error> for AppError` -/
def ofAnyhow (e : AnyError) : AppError :=
  if isTrtShapeRejected e then
    .serviceUnavailable "embedding temporarily unavailable for this input size; please retry"
  else .internal "internal server error"

end AppError

/-- a context changes neither the root nor what is found along the chain -/
theorem isTrtShapeRejected_iff (e : AnyError) :
    isTrtShapeRejected e = true ↔ ∃ r, e.root = .rejected r := by
  obtain ⟨cs, root⟩ := e
  have hc : ((cs.map Cause.context).any fun c => c.asRejection.isSome) = false := by
    rw [List.any_eq_false]
    intro c hc
    obtain ⟨t, -, rfl⟩ := List.mem_map.mp hc
    simp [Cause.asRejection]
  unfold isTrtShapeRejected AnyError.chain
  rw [List.any_append, hc]
  cases root <;> simp [Cause.asRejection]

end EmbedServer
