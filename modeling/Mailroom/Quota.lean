import Mailroom.Bindings

/-!
Limits on the requests of each key, counted in windows of a minute and of an hour.  A window opens
with the first request at or after the end of the one before it.  Instants are milliseconds.
-/

namespace Mailroom

/-- An open window: what it has let in and when it ends. -/
structure Window where
  count : Nat
  endsAt : Nat
deriving DecidableEq, Repr, Inhabited

namespace Window

def minute : Nat := 60000

def hour : Nat := 3600000

def start (now length : Nat) : Window := ⟨0, now + length⟩

/-- The window that counts now: itself while it lasts, a new one after. -/
def current (w : Window) (now length : Nat) : Window :=
  if w.endsAt ≤ now then start now length else w

/-- Whether a limit is reached; zero limits nothing. -/
def isFull (w : Window) (limit : Nat) : Bool := 0 < limit && limit ≤ w.count

def counted (w : Window) : Window := { w with count := w.count + 1 }

def left (w : Window) (limit now : Nat) : Option Nat :=
  if limit = 0 then none
  else if w.endsAt ≤ now then some limit
  else some (limit - w.count)

end Window

structure Counter where
  minute : Window
  hour : Window
deriving DecidableEq, Repr, Inhabited

namespace Counter

def start (now : Nat) : Counter := ⟨.start now Window.minute, .start now Window.hour⟩

def isExpired (c : Counter) (now : Nat) : Bool := c.minute.endsAt ≤ now && c.hour.endsAt ≤ now

/-- The windows that count now. -/
def current (c : Counter) (now : Nat) : Counter :=
  ⟨c.minute.current now Window.minute, c.hour.current now Window.hour⟩

end Counter

/-- What is left in each window; nothing where there is no limit. -/
structure Remaining where
  perMinute : Option Nat
  perHour : Option Nat
deriving DecidableEq, Repr, Inhabited

structure Limiter where
  counters : Bindings Counter
deriving DecidableEq, Repr, Inhabited

namespace Limiter

def empty : Limiter := ⟨[]⟩

def counter? (l : Limiter) (key : String) : Option Counter := l.counters.lookup key

/-- Let a request in unless a limit is reached; one that is kept out does not count. -/
def allow (l : Limiter) (key : String) (perMinute perHour now : Nat) : Bool × Limiter :=
  let counter := ((l.counter? key).getD (.start now)).current now
  if counter.minute.isFull perMinute || counter.hour.isFull perHour then
    (false, ⟨Bindings.put key counter l.counters⟩)
  else (true, ⟨Bindings.put key ⟨counter.minute.counted, counter.hour.counted⟩ l.counters⟩)

def remaining (l : Limiter) (key : String) (perMinute perHour now : Nat) : Remaining :=
  let counter := (l.counter? key).getD (.start now)
  ⟨counter.minute.left perMinute now, counter.hour.left perHour now⟩

/-- Drop the counters whose windows are both over, and say how many there were. -/
def sweep (l : Limiter) (now : Nat) : Nat × Limiter :=
  let kept := l.counters.filter fun entry => !entry.2.isExpired now
  (l.counters.length - kept.length, ⟨kept⟩)

end Limiter

end Mailroom
