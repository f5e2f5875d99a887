/-!
# Sockets

The states of a `WebSocket`, as its creator sees them.
-/

inductive SocketState where
  | connecting
  | open
  | closing
  | closed
  deriving DecidableEq

namespace SocketState

/-- Whether a socket is open or about to be. -/
def live : SocketState → Bool
  | connecting | .open => true
  | closing | closed => false

/-- `socket.close()` -/
def close (s : SocketState) : SocketState := if s.live then closing else s

@[simp]
theorem live_close (s : SocketState) :
  s.close.live = false
  := by
  cases s <;> rfl

@[simp]
theorem close_eq_closed {s : SocketState} :
  s.close = closed ↔ s = closed
  := by
  cases s <;> decide

theorem ne_closed_of_live {s : SocketState} (h : s.live = true) :
  s ≠ closed
  := by
  rintro rfl
  cases h

end SocketState
