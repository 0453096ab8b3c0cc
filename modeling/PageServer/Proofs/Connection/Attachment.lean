import PageServer.Connection.Session
import PageServer.Proofs.Connection.Intake
import PageServer.Proofs.Connection.Preparing
import PageServer.Proofs.Connection.Sending

/-!
# What a connection is attached to

Only attaching and detaching change whether a connection has a stream.  Whatever state it
is in, reading, working on a request and writing leave it with the stream that it has.
-/

namespace PageServer
namespace Connection

/-- Where a line of the head leaves the connection. -/
def LineStep.connection : LineStep → Connection
  | .done _ c | .next c => c

theorem fd_parseBody (c : Connection) : c.parseBody.2.fd = c.fd := by
  unfold parseBody
  split
  · rfl
  · split
    · rfl
    · split <;> rfl

theorem fd_addRequestLine (c : Connection) (text : String) :
    (c.addRequestLine text).connection.fd = c.fd := by
  unfold addRequestLine
  split <;> rfl

theorem fd_addHeaderLine (c : Connection) (text : String) :
    (c.addHeaderLine text).connection.fd = c.fd := by
  unfold addHeaderLine
  split
  · rfl
  · simp only
    split
    · rfl
    · rfl
    · rfl
    · split
      · rfl
      · exact fd_parseBody _

theorem fd_addLine (c : Connection) : c.addLine.connection.fd = c.fd := by
  unfold addLine
  split
  · rfl
  · split
    · rfl
    · simp only
      split
      · exact fd_addRequestLine _ _
      · exact fd_addHeaderLine _ _
      · rfl

theorem fd_parse (c : Connection) : c.parse.2.fd = c.fd := by
  fun_induction parse c with
  | case1 c hbody => exact fd_parseBody c
  | case2 | case3 | case4 => rfl
  | case5 c hbody pos hscan verdict d hline =>
    have hfd := fd_addLine { c with scanned := pos }
    rw [hline] at hfd
    exact hfd
  | case6 c hbody pos hscan d hline ih =>
    have hfd := fd_addLine { c with scanned := pos }
    rw [hline] at hfd
    exact ih.trans hfd

end Connection

namespace Session

theorem isLive_read (s : Session) (now : Nat) :
    (s.read now).2.connection.isLive = s.connection.isLive := by
  obtain ⟨data, since, heq⟩ := Connection.read_eq s.connection now
    (s.stream.readReplies s.connection.room)
  rw [show (s.read now).2.connection = _ from heq]
  rfl

theorem isLive_process (s : Session) (root : String) (b : Accounts.Backend) :
    (s.process root b).2.1.connection.isLive = s.connection.isLive := by
  obtain ⟨keepAlive, status, output, file, total, -, heq⟩ :=
    Connection.process_eq root b s.connection
  rw [show (s.process root b).2.1.connection = _ from heq]
  exact congrArg Option.isSome (Connection.fd_parse s.connection)

theorem isLive_write (s : Session) (now : Nat) :
    (s.write now).2.connection.isLive = s.connection.isLive := by
  generalize hreplies : s.stream.writeReplies _ _ = replies
  have hwrote := Connection.wrote_write now replies s.connection
  have heq : (s.write now).2.connection = (s.connection.write now replies).2.1 := by
    rw [← hreplies]
    rfl
  rw [heq]
  generalize (s.connection.write now replies).1 = outcome,
    (s.connection.write now replies).2.1 = d at hwrote
  cases hwrote with
  | on sent file closes => rfl
  | anew summary stays => rfl

theorem connection_cut (s : Session) : s.cut.connection = s.connection := by
  unfold cut
  split <;> rfl

end Session
end PageServer
