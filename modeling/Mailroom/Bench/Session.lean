import Mailroom.Error
import Mailroom.Sql.Store
import Mailroom.Sql.Schema

/-!
A session with a database that follows a script: it notes everything that is said to it and answers
with the next of its replies.  The session is held by one dialogue at a time; a dialogue that waits
gets its turn as soon as the other has had an answer outside of a transaction.
-/

namespace Mailroom.Bench

open Sql (Command Dialogue History Reply)

/-- A session: the replies that are left, what was said, and the dialogues that wait. -/
structure Session where
  replies : List Reply := []
  said : List Command := []
  waiting : List (Dialogue Unit) := []
  isInTransaction : Bool := false
  history : History := {}

namespace Session

/-- The reply of a script that says nothing about it. -/
def silence : Reply := .rows [] 0

/-- The next reply of the script.  Taking back and recording need none. -/
def nextReply (s : Session) : Command → Reply × List Reply
  | .rollback | .recordMigration _ _ _ => (silence, s.replies)
  | _ =>
      match s.replies with
      | [] => (silence, [])
      | reply :: rest => (reply, rest)

/-- Whether a session is in a transaction after a command and its reply. -/
def staysInTransaction (isIn : Bool) : Command → Reply → Bool
  | .beginTransaction, _ => true
  | .commit, .rows _ _ => false
  | .rollback, _ => false
  | _, _ => isIn

def hear (s : Session) (c : Command) : Reply × Session :=
  let (reply, replies) := s.nextReply c
  (reply,
    { s with
      replies, said := s.said ++ [c]
      isInTransaction := staysInTransaction s.isInTransaction c reply })

def hold (s : Session) : Dialogue Unit → Session
  | .ended _ => s
  | .say c next =>
      let (reply, s) := s.hear c
      s.hold (next reply)

/-- Hold the dialogues that wait, unless there is a transaction. -/
def yield (s : Session) : Session :=
  if s.isInTransaction then s else s.waiting.foldl hold { s with waiting := [] }

/-- Hold a dialogue to its end, yielding to those that wait. -/
def converse {α : Type} (s : Session) : Dialogue α → Except Failure α × Session
  | .ended result => (result.mapError Failure.database, s)
  | .say c next =>
      let (reply, s) := s.hear c
      s.yield.converse (next reply)

def defer (s : Session) (d : Dialogue Unit) : Session := { s with waiting := s.waiting ++ [d] }

end Session

end Mailroom.Bench
