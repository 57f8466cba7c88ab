/-!
# The socket layer

What differs between the two families of platforms the program is built for: which
errors a receive may retry, and what `send` does to the process when the connection
is gone.
-/
namespace PortForwardX

inductive Platform where
  | posix
  | windows
  deriving DecidableEq, Repr

/-- A descriptor number, or `kInvalidSocket`. -/
abbrev SocketHandle := Option Nat

def kInvalidSocket : SocketHandle := none

/-- Error codes the program tells apart. -/
inductive SocketError where
  | again
  | wouldBlock
  | interrupted
  | timedOut
  | badDescriptor
  | other (code : Int)
  deriving DecidableEq, Repr

/-- `IsTransientRecvError`. -/
def isTransientRecvError : Platform → SocketError → Bool
  | .posix, .again | .posix, .wouldBlock | .posix, .interrupted => true
  | .windows, .wouldBlock | .windows, .timedOut | .windows, .interrupted => true
  | _, _ => false

/-- Flags `send` knows that concern signals. -/
inductive SendFlag where
  | noSignal
  deriving DecidableEq, Repr

/-- The flags argument that `Send` passes to `send`. -/
def sendFlags : List SendFlag := []

inductive Signal where
  | interrupt
  | terminate
  | brokenPipe
  deriving DecidableEq, Repr

/-- The signals `main` installs a handler for. None is ignored. -/
def handledSignals : List Signal := [.interrupt, .terminate]

/-- A `Send` on a stream socket whose write side is gone ends the process: the
platform raises the signal, nothing suppresses it and nothing handles it. -/
def brokenSendKills (platform : Platform) : Bool :=
  platform == .posix && !sendFlags.contains .noSignal && !handledSignals.contains .brokenPipe

theorem brokenSendKills_iff (platform : Platform) :
    brokenSendKills platform = true ↔ platform = .posix := by
  cases platform <;> decide

end PortForwardX
