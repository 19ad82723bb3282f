import UavBluetooth.Lib.Pipe
import UavBluetooth.Lib.Run

set_option autoImplicit false

/-! # The serial link

`run_bridge` polls the RFCOMM socket and the PTY master of a link and forwards what it reads on
either side to the other one, until a side closes. The kernel and the remote sides act between any
two of its calls: bytes arrive, a side closes, the node asks the bridge to stop.
-/

namespace UavBluetooth.Serial

open Run

/-! ## The bridge -/

inductive Side where
  | socket | pty
  deriving DecidableEq, Repr

/-- What `poll` reports of a descriptor. -/
structure Events where
  pollin : Bool := false
  pollhup : Bool := false
  pollerr : Bool := false
  pollnval : Bool := false
  deriving DecidableEq, Repr

/-- `POLLERR | POLLNVAL` -/
def Events.terminal (e : Events) : Bool := e.pollerr || e.pollnval

/-- Why the bridge ends. -/
inductive Reason where
  | stopped
  | pollFailed
  /-- A side has closed and nothing is left to read. -/
  | endOfFile (side : Side)
  | readFailed (side : Side)
  | writeFailed (side : Side)
  | errorReported
  /-- `POLLHUP` on the socket, and no error. -/
  | hangUp
  deriving DecidableEq, Repr

/-- Where the bridge is: before which of its calls, with the events of the socket and the PTY. -/
inductive Position where
  | loop
  | polling
  | reading (side : Side) (socket pty : Events)
  /-- `write_all` of what was read on the other side. -/
  | writing (side : Side) (socket pty : Events)
  | ended (reason : Reason)
  deriving DecidableEq, Repr

/-- The size of the buffer. -/
def bufferSize : Nat := 4096

structure Link where
  /-- From the socket to the PTY. -/
  toPty : Pipe UInt8 := {}
  /-- From the PTY to the socket. -/
  toSocket : Pipe UInt8 := {}
  socketClosed : Bool := false
  ptyClosed : Bool := false
  stop : Bool := false
  position : Position := .loop
  deriving DecidableEq, Repr

/-- The other end of the pipe that begins at a side. -/
def Side.other : Side → Side
  | .socket => .pty
  | .pty => .socket

/-- The side whose orderly close ends the bridge. -/
def Reason.closedSide : Reason → Option Side
  | .endOfFile side => some side
  | .hangUp => some .socket
  | _ => none

/-- The side that the bridge writes to, or has failed to write to. -/
def Position.writesTo : Position → Option Side
  | .writing side _ _ => some side
  | .ended (.writeFailed side) => some side
  | _ => none

/-- The events of the round. -/
def Position.events : Position → Option (Events × Events)
  | .reading _ socket pty => some (socket, pty)
  | .writing _ socket pty => some (socket, pty)
  | _ => none

namespace Link

variable (l : Link)

/-- The pipe that begins at a side. -/
def pipe : Side → Pipe UInt8
  | .socket => l.toPty
  | .pty => l.toSocket

def setPipe (side : Side) (p : Pipe UInt8) : Link :=
  match side with
  | .socket => { l with toPty := p }
  | .pty => { l with toSocket := p }

def closed : Side → Bool
  | .socket => l.socketClosed
  | .pty => l.ptyClosed

/-- A side closes; nothing arrives from it any more. -/
def close : Side → Link
  | .socket => { l with socketClosed := true }
  | .pty => { l with ptyClosed := true }

def goTo (position : Position) : Link := { l with position := position }

/-- The end of a round: the events that end the bridge. -/
def roundEnd (socket pty : Events) : Position :=
  if socket.terminal || socket.pollhup || pty.terminal then
    if socket.terminal || pty.terminal then .ended .errorReported else .ended .hangUp
  else .loop

/-- After the socket has been served. -/
def servePty (socket pty : Events) : Position :=
  if pty.pollin then .reading .pty socket pty else roundEnd socket pty

def serveSocket (socket pty : Events) : Position :=
  if socket.pollin then .reading .socket socket pty else servePty socket pty

/-- Where a round goes on after a side has been served. -/
def afterSide (side : Side) (socket pty : Events) : Position :=
  match side with
  | .socket => servePty socket pty
  | .pty => roundEnd socket pty

inductive PollResult where
  | failed
  | interrupted
  | timeout
  | ready (socket pty : Events)
  deriving DecidableEq, Repr

inductive ReadResult where
  | bytes (count : Nat)
  | failed
  /-- The side has closed: 0 for the socket, `EIO` for the PTY. -/
  | endOfFile
  deriving DecidableEq, Repr

inductive WriteResult where
  | bytes (count : Nat)
  | interrupted
  | failed
  deriving DecidableEq, Repr

inductive Action where
  /-- The remote side delivers bytes to the kernel. -/
  | arrive (side : Side) (bytes : List UInt8)
  | close (side : Side)
  | requestStop
  /-- The bridge looks at `stop`. -/
  | loop
  | poll (result : PollResult)
  | read (result : ReadResult)
  | write (result : WriteResult)
  deriving DecidableEq, Repr

/-- A read gives some of the queued bytes, at most a buffer; the end of the file is seen only when
none is left. -/
def stepRead (side : Side) (socket pty : Events) : ReadResult → Option Link
  | .bytes count =>
      if 0 < count ∧ count ≤ bufferSize ∧ count ≤ (l.pipe side).queue.length then
        some ((l.setPipe side ((l.pipe side).take count)).goTo (.writing side.other socket pty))
      else none
  | .failed => some (l.goTo (.ended (.readFailed side)))
  | .endOfFile =>
      if l.closed side = true ∧ (l.pipe side).queue = [] then
        some (l.goTo (.ended (.endOfFile side)))
      else none

/-- One call of `write_all`'s loop, to a side. -/
def stepWrite (side : Side) (socket pty : Events) : WriteResult → Option Link
  | .bytes count =>
      if 0 < count ∧ count ≤ (l.pipe side.other).buffer.length then
        let written := l.setPipe side.other ((l.pipe side.other).put count)
        if (written.pipe side.other).buffer = [] then
          some (written.goTo (afterSide side.other socket pty))
        else some written
      else none
  | .interrupted => some l
  | .failed => some (l.goTo (.ended (.writeFailed side)))

def step : Action → Option Link
  | .arrive side bytes =>
      if l.closed side then none else some (l.setPipe side ((l.pipe side).arrive bytes))
  | .close side => some (l.close side)
  | .requestStop => some { l with stop := true }
  | .loop =>
      match l.position with
      | .loop => some (l.goTo (if l.stop then .ended .stopped else .polling))
      | _ => none
  | .poll result =>
      match l.position with
      | .polling =>
          match result with
          | .failed => some (l.goTo (.ended .pollFailed))
          | .interrupted | .timeout => some (l.goTo .loop)
          | .ready socket pty =>
              -- the socket hangs up without an error only once it is closed
              if socket.pollhup = true ∧ socket.terminal = false ∧ l.socketClosed = false then none
              else some (l.goTo (serveSocket socket pty))
      | _ => none
  | .read result =>
      match l.position with
      | .reading side socket pty => l.stepRead side socket pty result
      | _ => none
  | .write result =>
      match l.position with
      | .writing side socket pty => l.stepWrite side socket pty result
      | _ => none

/-- A link that has just been attached. -/
def Initial (l : Link) : Prop := l = {}

/-! ## Stream integrity -/

/-- Nothing is lost, duplicated or reordered, and a side that has closed has been heard out. -/
structure Intact (l : Link) : Prop where
  written : ∀ side, (l.pipe side).written <+: (l.pipe side).read
  read : ∀ side, (l.pipe side).read <+: (l.pipe side).arrived
  forwarded : ∀ reason side, l.position = .ended reason → reason.closedSide = some side →
    (l.pipe side).written = (l.pipe side).arrived

/-- The round ends because the socket has hung up. -/
def hangsUp (socket pty : Events) : Bool :=
  socket.pollhup && !socket.terminal && !pty.terminal

/-- A hang-up of the socket finds nothing queued that the round does not read: the read of the
round takes the whole queue, and without a read there is none. -/
def Drains (l : Link) : Action → Prop
  | .poll (.ready socket pty) =>
      hangsUp socket pty = true → socket.pollin = false → l.toPty.queue = []
  | .read (.bytes count) =>
      match l.position with
      | .reading .socket socket pty => hangsUp socket pty = true → count = l.toPty.queue.length
      | _ => True
  | _ => True

instance (a : Action) : Decidable (l.Drains a) := by
  unfold Drains
  split
  · infer_instance
  · split <;> infer_instance
  · infer_instance

end Link

/-! ### The pipes -/

namespace Link

variable {l : Link}

theorem other_other (side : Side) : side.other.other = side := by cases side <;> rfl

theorem pipe_setPipe_self (side : Side) (p : Pipe UInt8) : (l.setPipe side p).pipe side = p := by
  cases side <;> rfl

theorem pipe_setPipe_of_ne {side side' : Side} (h : side ≠ side') (p : Pipe UInt8) :
    (l.setPipe side p).pipe side' = l.pipe side' := by
  cases side <;> cases side' <;> first | rfl | exact absurd rfl h

theorem position_setPipe (side : Side) (p : Pipe UInt8) :
    (l.setPipe side p).position = l.position := by
  cases side <;> rfl

theorem closed_setPipe (side side' : Side) (p : Pipe UInt8) :
    (l.setPipe side p).closed side' = l.closed side' := by
  cases side <;> cases side' <;> rfl

theorem pipe_close (side side' : Side) : (l.close side).pipe side' = l.pipe side' := by
  cases side <;> cases side' <;> rfl

theorem position_close (side : Side) : (l.close side).position = l.position := by
  cases side <;> rfl

theorem closed_close (side side' : Side) :
    (l.close side).closed side' = (l.closed side' || (side == side')) := by
  cases side <;> cases side' <;> simp [close, closed]

theorem pipe_goTo (position : Position) (side : Side) : (l.goTo position).pipe side = l.pipe side := by
  cases side <;> rfl

theorem closed_goTo (position : Position) (side : Side) :
    (l.goTo position).closed side = l.closed side := by
  cases side <;> rfl

/-! ### The invariant -/

/-- Between the calls of the bridge: what is in a buffer is being written, a round that ends with a
hang-up leaves nothing in the socket, and a closed side has been read to its end. -/
structure Orderly (l : Link) : Prop where
  conserved : ∀ side, (l.pipe side).Conserved
  idle : ∀ side, l.position.writesTo ≠ some side.other → (l.pipe side).buffer = []
  closing : ∀ socket pty, l.position.events = some (socket, pty) → hangsUp socket pty = true →
    l.socketClosed = true
  drained : ∀ socket pty, l.position.events = some (socket, pty) → hangsUp socket pty = true →
    l.position ≠ .reading .socket socket pty → l.toPty.queue = []
  ended : ∀ reason side, l.position = .ended reason → reason.closedSide = some side →
    l.closed side = true ∧ (l.pipe side).queue = []

theorem orderly_initial (h : l.Initial) : l.Orderly := by
  subst h
  exact {
    conserved := fun side => by cases side <;> exact Pipe.conserved_empty
    idle := fun side _ => by cases side <;> rfl
    closing := nofun
    drained := nofun
    ended := nofun }

theorem Orderly.intact (h : l.Orderly) : l.Intact where
  written side := (h.conserved side).written_of_read
  read side := (h.conserved side).read_of_arrived
  forwarded reason side hended hclosed := by
    refine (h.conserved side).forwarded (h.ended reason side hended hclosed).2 (h.idle side ?_)
    rw [hended]
    cases reason with
    | writeFailed side' => cases hclosed
    | _ => exact nofun

/-- The outside world changes neither the position nor the buffers, and nothing arrives from a
closed side. -/
theorem Orderly.outside (h : l.Orderly) {l' : Link} (hconserved : ∀ side, (l'.pipe side).Conserved)
    (hposition : l'.position = l.position)
    (hbuffer : ∀ side, (l'.pipe side).buffer = (l.pipe side).buffer)
    (hclosed : ∀ side, l.closed side = true →
      l'.closed side = true ∧ (l'.pipe side).queue = (l.pipe side).queue) : l'.Orderly where
  conserved := hconserved
  idle side hwrites := by
    rw [hposition] at hwrites
    rw [hbuffer]
    exact h.idle side hwrites
  closing socket pty hevents hhangs := by
    rw [hposition] at hevents
    exact (hclosed .socket (h.closing socket pty hevents hhangs)).1
  drained socket pty hevents hhangs hreading := by
    rw [hposition] at hevents hreading
    have hqueue := (hclosed .socket (h.closing socket pty hevents hhangs)).2
    exact hqueue.trans (h.drained socket pty hevents hhangs hreading)
  ended reason side hended hreason := by
    rw [hposition] at hended
    obtain ⟨hside, hqueue⟩ := h.ended reason side hended hreason
    exact ⟨(hclosed side hside).1, (hclosed side hside).2.trans hqueue⟩

theorem Orderly.arrive (h : l.Orderly) {side : Side} (hopen : l.closed side = false)
    (bytes : List UInt8) : (l.setPipe side ((l.pipe side).arrive bytes)).Orderly := by
  refine h.outside (fun side' => ?_) (position_setPipe _ _) (fun side' => ?_) fun side' hside' => ?_
  · by_cases hside : side = side'
    · subst hside
      rw [pipe_setPipe_self]
      exact (h.conserved side).arrive bytes
    · rw [pipe_setPipe_of_ne hside]
      exact h.conserved side'
  · by_cases hside : side = side'
    · subst hside
      rw [pipe_setPipe_self]
      rfl
    · rw [pipe_setPipe_of_ne hside]
  · have hside : side ≠ side' := by
      rintro rfl
      rw [hopen] at hside'
      cases hside'
    rw [closed_setPipe, pipe_setPipe_of_ne hside]
    exact ⟨hside', rfl⟩

theorem Orderly.close (h : l.Orderly) (side : Side) : (l.close side).Orderly := by
  refine h.outside (fun side' => ?_) (position_close side) (fun side' => ?_) fun side' hside' => ?_
  · rw [pipe_close]
    exact h.conserved side'
  · rw [pipe_close]
  · rw [pipe_close, closed_close, hside']
    exact ⟨rfl, rfl⟩

/-! ### A round -/

/-- A position that the bridge may take: nothing is in its buffers, and it keeps the rules of a
hang-up. -/
structure Allows (l : Link) (position : Position) : Prop where
  closing : ∀ socket pty, position.events = some (socket, pty) → hangsUp socket pty = true →
    l.socketClosed = true
  drained : ∀ socket pty, position.events = some (socket, pty) → hangsUp socket pty = true →
    position ≠ .reading .socket socket pty → l.toPty.queue = []
  ended : ∀ reason side, position = .ended reason → reason.closedSide = some side →
    l.closed side = true ∧ (l.pipe side).queue = []

/-- Pipes do not care for the position. -/
theorem orderly_goTo {position : Position} (hconserved : ∀ side, (l.pipe side).Conserved)
    (hidle : ∀ side, position.writesTo ≠ some side.other → (l.pipe side).buffer = [])
    (hallows : l.Allows position) : (l.goTo position).Orderly where
  conserved side := by
    rw [pipe_goTo]
    exact hconserved side
  idle side hwrites := by
    rw [pipe_goTo]
    exact hidle side hwrites
  closing := hallows.closing
  drained := hallows.drained
  ended reason side hended hreason := by
    rw [pipe_goTo, closed_goTo]
    exact hallows.ended reason side hended hreason

theorem allows_of_quiet {position : Position} (hevents : position.events = none)
    (hended : ∀ reason, position = .ended reason → reason.closedSide = none) : l.Allows position where
  closing socket pty hsome := by rw [hevents] at hsome; cases hsome
  drained socket pty hsome := by rw [hevents] at hsome; cases hsome
  ended reason side hposition hreason := by
    rw [hended reason hposition] at hreason
    cases hreason

/-- A round may end once the hung-up socket is drained. -/
theorem allows_roundEnd {socket pty : Events}
    (hclosing : hangsUp socket pty = true → l.socketClosed = true)
    (hdrained : hangsUp socket pty = true → l.toPty.queue = []) :
    l.Allows (roundEnd socket pty) := by
  unfold roundEnd
  split
  · rename_i hover
    split
    · exact allows_of_quiet rfl fun reason hreason => by cases hreason; rfl
    · rename_i hclean
      rw [Bool.not_eq_true, Bool.or_eq_false_iff] at hclean
      have hhangs : hangsUp socket pty = true := by
        unfold hangsUp
        rw [hclean.1, hclean.2]
        rw [hclean.1, hclean.2] at hover
        simpa using hover
      refine ⟨nofun, nofun, ?_⟩
      intro reason side hended hreason
      cases hended
      cases hreason
      exact ⟨hclosing hhangs, hdrained hhangs⟩
  · exact allows_of_quiet rfl nofun

theorem allows_servePty {socket pty : Events}
    (hclosing : hangsUp socket pty = true → l.socketClosed = true)
    (hdrained : hangsUp socket pty = true → l.toPty.queue = []) :
    l.Allows (servePty socket pty) := by
  unfold servePty
  split
  · refine ⟨?_, ?_, nofun⟩
    · intro socket' pty' hevents
      cases hevents
      exact hclosing
    · intro socket' pty' hevents hhangs _
      cases hevents
      exact hdrained hhangs
  · exact allows_roundEnd hclosing hdrained

/-- While the bridge writes nowhere, both buffers are empty. -/
theorem Orderly.quiet (h : l.Orderly) (hquiet : l.position.writesTo = none) (side : Side) :
    (l.pipe side).buffer = [] :=
  h.idle side (by rw [hquiet]; exact nofun)

theorem Orderly.poll (h : l.Orderly) (hposition : l.position = .polling) {socket pty : Events}
    (hclosed : ¬(socket.pollhup = true ∧ socket.terminal = false ∧ l.socketClosed = false))
    (hdrains : l.Drains (.poll (.ready socket pty))) :
    (l.goTo (serveSocket socket pty)).Orderly := by
  have hquiet := h.quiet (by rw [hposition]; rfl)
  have hclosing : hangsUp socket pty = true → l.socketClosed = true := by
    intro hhangs
    unfold hangsUp at hhangs
    rw [Bool.and_eq_true, Bool.and_eq_true, Bool.not_eq_true'] at hhangs
    by_contra hopen
    exact hclosed ⟨hhangs.1.1, hhangs.1.2, Bool.not_eq_true _ ▸ hopen⟩
  refine orderly_goTo h.conserved (fun side _ => hquiet side) ?_
  unfold serveSocket
  split
  · refine ⟨?_, ?_, nofun⟩
    · intro socket' pty' hevents
      cases hevents
      exact hclosing
    · intro socket' pty' hevents _ hreading
      cases hevents
      exact absurd rfl hreading
  · rename_i hnothing
    exact allows_servePty hclosing fun hhangs => hdrains hhangs (Bool.not_eq_true _ ▸ hnothing)

theorem Orderly.read (h : l.Orderly) {side : Side} {socket pty : Events}
    (hposition : l.position = .reading side socket pty) {count : Nat}
    (hdrains : l.Drains (.read (.bytes count))) :
    ((l.setPipe side ((l.pipe side).take count)).goTo (.writing side.other socket pty)).Orderly := by
  have hquiet := h.quiet (by rw [hposition]; rfl)
  have hevents : l.position.events = some (socket, pty) := by rw [hposition]; rfl
  refine orderly_goTo (fun side' => ?_) (fun side' hwrites => ?_) ⟨?_, ?_, nofun⟩
  · by_cases hside : side = side'
    · subst hside
      rw [pipe_setPipe_self]
      exact (h.conserved side).take (hquiet side) count
    · rw [pipe_setPipe_of_ne hside]
      exact h.conserved side'
  · have hside : side ≠ side' := by
      rintro rfl
      exact hwrites rfl
    rw [pipe_setPipe_of_ne hside]
    exact hquiet side'
  · intro socket' pty' hround hhangs
    cases hround
    exact (closed_setPipe side .socket _).trans (h.closing socket pty hevents hhangs)
  · intro socket' pty' hround hhangs _
    cases hround
    have htoPty : (l.setPipe side ((l.pipe side).take count)).toPty =
        (l.setPipe side ((l.pipe side).take count)).pipe .socket := rfl
    rw [htoPty]
    cases side with
    | socket =>
        rw [pipe_setPipe_self]
        unfold Drains at hdrains
        rw [hposition] at hdrains
        have hcount : count = (l.pipe .socket).queue.length := hdrains hhangs
        unfold Pipe.take
        dsimp only
        rw [hcount, List.drop_length]
    | pty =>
        have hside : Side.pty ≠ Side.socket := by decide
        rw [pipe_setPipe_of_ne hside]
        exact h.drained socket pty hevents hhangs (by rw [hposition]; exact nofun)

theorem Orderly.endOfFile (h : l.Orderly) {side : Side} {socket pty : Events}
    (hposition : l.position = .reading side socket pty) (hclosed : l.closed side = true)
    (hqueue : (l.pipe side).queue = []) : (l.goTo (.ended (.endOfFile side))).Orderly := by
  have hquiet := h.quiet (by rw [hposition]; rfl)
  refine orderly_goTo h.conserved (fun side' _ => hquiet side') ⟨nofun, nofun, ?_⟩
  intro reason side' hended hreason
  cases hended
  cases hreason
  exact ⟨hclosed, hqueue⟩

/-- The bridge gives up. -/
theorem Orderly.giveUp (h : l.Orderly) {reason : Reason} (hreason : reason.closedSide = none)
    (hwrites : ∀ side : Side, (Position.ended reason).writesTo ≠ some side.other →
      l.position.writesTo ≠ some side.other) : (l.goTo (.ended reason)).Orderly :=
  orderly_goTo h.conserved (fun side hother => h.idle side (hwrites side hother))
    (allows_of_quiet rfl fun reason' hended => by cases hended; exact hreason)

theorem Orderly.write (h : l.Orderly) {side : Side} {socket pty : Events}
    (hposition : l.position = .writing side socket pty) (count : Nat) {l' : Link}
    (hstep : l.stepWrite side socket pty (.bytes count) = some l') : l'.Orderly := by
  have hevents : l.position.events = some (socket, pty) := by rw [hposition]; rfl
  have hdrained : hangsUp socket pty = true → l.toPty.queue = [] := fun hhangs =>
    h.drained socket pty hevents hhangs (by rw [hposition]; exact nofun)
  unfold stepWrite at hstep
  dsimp only at hstep
  split at hstep
  · have hconserved : ∀ side', ((l.setPipe side.other
        ((l.pipe side.other).put count)).pipe side').Conserved := by
      intro side'
      by_cases hside : side.other = side'
      · subst hside
        rw [pipe_setPipe_self]
        exact (h.conserved side.other).put count
      · rw [pipe_setPipe_of_ne hside]
        exact h.conserved side'
    have hqueue : ∀ side', ((l.setPipe side.other ((l.pipe side.other).put count)).pipe side').queue =
        (l.pipe side').queue := by
      intro side'
      by_cases hside : side.other = side'
      · subst hside
        rw [pipe_setPipe_self]
        rfl
      · rw [pipe_setPipe_of_ne hside]
    have hother : ∀ side', side.other ≠ side' → (l.pipe side').buffer = [] := by
      intro side' hside
      refine h.idle side' ?_
      rw [hposition]
      intro hwrites
      have heq : side = side'.other := Option.some.inj hwrites
      exact hside (by rw [heq, other_other])
    have hclosing : hangsUp socket pty = true → (l.setPipe side.other
        ((l.pipe side.other).put count)).socketClosed = true := fun hhangs =>
      (closed_setPipe side.other .socket _).trans (h.closing socket pty hevents hhangs)
    split at hstep
    · rename_i hempty
      obtain rfl := Option.some.inj hstep
      refine orderly_goTo hconserved (fun side' _ => ?_) ?_
      · by_cases hside : side.other = side'
        · subst hside
          exact hempty
        · rw [pipe_setPipe_of_ne hside]
          exact hother side' hside
      · have hdrained' : hangsUp socket pty = true → (l.setPipe side.other
            ((l.pipe side.other).put count)).toPty.queue = [] := fun hhangs =>
          (hqueue .socket).trans (hdrained hhangs)
        cases side with
        | pty => exact allows_servePty hclosing hdrained'
        | socket => exact allows_roundEnd hclosing hdrained'
    · obtain rfl := Option.some.inj hstep
      refine ⟨hconserved, ?_, ?_, ?_, ?_⟩
      · intro side' hwrites
        rw [position_setPipe, hposition] at hwrites
        have hside : side.other ≠ side' := by
          rintro rfl
          exact hwrites (by rw [other_other]; rfl)
        rw [pipe_setPipe_of_ne hside]
        exact hother side' hside
      · intro socket' pty' hround hhangs
        rw [position_setPipe, hevents] at hround
        cases hround
        exact hclosing hhangs
      · intro socket' pty' hround hhangs _
        rw [position_setPipe, hevents] at hround
        cases hround
        exact (hqueue .socket).trans (hdrained hhangs)
      · intro reason side' hended
        rw [position_setPipe, hposition] at hended
        cases hended
  · cases hstep

theorem Orderly.step (h : l.Orderly) {a : Action} (hdrains : l.Drains a) {l' : Link}
    (hstep : l.step a = some l') : l'.Orderly := by
  unfold Link.step at hstep
  cases a with
  | arrive side bytes =>
      obtain ⟨hopen, hsome⟩ := Option.ite_none_left_eq_some.mp hstep
      obtain rfl := Option.some.inj hsome
      exact h.arrive (Bool.not_eq_true _ ▸ hopen) bytes
  | close side =>
      obtain rfl := Option.some.inj hstep
      exact h.close side
  | requestStop =>
      obtain rfl := Option.some.inj hstep
      have hpipe : ∀ side, ({ l with stop := true } : Link).pipe side = l.pipe side := by
        intro side
        cases side <;> rfl
      refine h.outside (fun side => ?_) rfl (fun side => ?_) fun side hclosed => ?_
      · rw [hpipe]
        exact h.conserved side
      · rw [hpipe]
      · rw [hpipe]
        cases side <;> exact ⟨hclosed, rfl⟩
  | loop =>
      dsimp only at hstep
      split at hstep
      · rename_i hposition
        obtain rfl := Option.some.inj hstep
        have hquiet := h.quiet (by rw [hposition]; rfl)
        refine orderly_goTo h.conserved (fun side _ => hquiet side) ?_
        split
        · exact allows_of_quiet rfl fun reason hended => by cases hended; rfl
        · exact allows_of_quiet rfl nofun
      · cases hstep
  | poll result =>
      dsimp only at hstep
      split at hstep
      · rename_i hposition
        have hquiet := h.quiet (by rw [hposition]; rfl)
        split at hstep
        · obtain rfl := Option.some.inj hstep
          exact h.giveUp rfl fun side _ => by rw [hposition]; exact nofun
        · obtain rfl := Option.some.inj hstep
          exact orderly_goTo h.conserved (fun side _ => hquiet side) (allows_of_quiet rfl nofun)
        · obtain rfl := Option.some.inj hstep
          exact orderly_goTo h.conserved (fun side _ => hquiet side) (allows_of_quiet rfl nofun)
        · obtain ⟨hclosed, hsome⟩ := Option.ite_none_left_eq_some.mp hstep
          obtain rfl := Option.some.inj hsome
          exact h.poll hposition hclosed hdrains
      · cases hstep
  | read result =>
      dsimp only at hstep
      split at hstep
      · rename_i side socket pty hposition
        unfold stepRead at hstep
        split at hstep
        · obtain ⟨_, hsome⟩ := Option.ite_none_right_eq_some.mp hstep
          obtain rfl := Option.some.inj hsome
          exact h.read hposition hdrains
        · obtain rfl := Option.some.inj hstep
          exact h.giveUp rfl fun side _ => by rw [hposition]; exact nofun
        · obtain ⟨hend, hsome⟩ := Option.ite_none_right_eq_some.mp hstep
          obtain rfl := Option.some.inj hsome
          exact h.endOfFile hposition hend.1 hend.2
      · cases hstep
  | write result =>
      dsimp only at hstep
      split at hstep
      · rename_i side socket pty hposition
        cases result with
        | bytes count => exact h.write hposition count hstep
        | interrupted =>
            obtain rfl := Option.some.inj hstep
            exact h
        | failed =>
            obtain rfl := Option.some.inj hstep
            exact h.giveUp rfl fun side' hwrites => by rw [hposition]; exact hwrites
      · cases hstep

/-- **The bridge keeps its streams intact**, if every hang-up of the socket is read to the end: what
it writes on one side is what it reads on the other, in order, and a side that closes has been
forwarded in full. -/
theorem bridge_intact (h : ReachableUnder step Drains Initial l) : l.Intact :=
  (h.invariant (P := Orderly) (fun _ => orderly_initial)
    fun _ _ _ horderly hdrains hstep => horderly.step hdrains hstep).intact

/-- A few bytes and a hang-up, forwarded in two pieces. -/
def shortGoodbye : List Action :=
  [.arrive .socket [1, 2, 3], .loop, .close .socket,
    .poll (.ready { pollin := true, pollhup := true } {}), .read (.bytes 3), .write (.bytes 1),
    .write .interrupted, .write (.bytes 2)]

theorem bridge_intact_at_goodbye : ∃ l, exec step ({} : Link) shortGoodbye = some l ∧
    l.position = .ended .hangUp ∧ l.toPty.written = [1, 2, 3] ∧ l.Intact := by
  have hcomputed : (allowed step (fun l a => decide (l.Drains a)) {} shortGoodbye &&
      (exec step ({} : Link) shortGoodbye).any fun l =>
        decide (l.position = .ended .hangUp) && decide (l.toPty.written = [1, 2, 3])) = true := by
    decide
  rw [Bool.and_eq_true] at hcomputed
  obtain ⟨l, hl, hend⟩ := (Option.any_eq_true _ _).mp hcomputed.2
  rw [Bool.and_eq_true, decide_eq_true_eq, decide_eq_true_eq] at hend
  exact ⟨l, hl, hend.1, hend.2,
    bridge_intact (ReachableUnder.exec (.start rfl) (guarded_of_decide hcomputed.1) hl)⟩

/-- More than a buffer is queued when the socket hangs up; one buffer is forwarded. -/
def longGoodbye : List Action :=
  [.arrive .socket (List.replicate 5000 7), .loop, .close .socket,
    .poll (.ready { pollin := true, pollhup := true } {}), .read (.bytes 4096),
    .write (.bytes 4096)]

theorem goodbye_cut_short : ¬∀ l, Reachable step Initial l → l.Intact := by
  intro hclaim
  have hcomputed : (exec step ({} : Link) longGoodbye).any (fun l =>
      decide (l.position = .ended .hangUp) && decide (l.toPty.written.length = 4096) &&
        decide (l.toPty.arrived.length = 5000)) = true := by
    decide +kernel
  obtain ⟨l, hl, hend⟩ := (Option.any_eq_true _ _).mp hcomputed
  rw [Bool.and_eq_true, Bool.and_eq_true, decide_eq_true_eq, decide_eq_true_eq,
    decide_eq_true_eq] at hend
  obtain ⟨⟨hposition, hwritten⟩, harrived⟩ := hend
  have hforwarded := (hclaim l (Reachable.exec (.start rfl) hl)).forwarded .hangUp .socket hposition
    rfl
  have hlengths := congrArg List.length hforwarded
  have hcut : (l.pipe .socket).written.length = 4096 := hwritten
  have hall : (l.pipe .socket).arrived.length = 5000 := harrived
  omega

end Link

end UavBluetooth.Serial
