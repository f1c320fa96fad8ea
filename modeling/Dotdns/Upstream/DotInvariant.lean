import Dotdns.Upstream.Dot

/-!
# Upstream — whose reply a DoT connection carries

What is written on a connection and what has come back fit together at
every point: an idle connection has nothing under way, and a connection in
use has at most the one query of the one call that uses it. The headline
is that as long as a peer answers each framed query at most once and in
order, no reply is ever read by a query other than its own.
-/

namespace Dotdns

open Lib

/-! ## The state of a connection -/

namespace DotConn

/-- The frames of the queries written whole. -/
def wire (k : DotConn) : List UInt8 := (k.queries.map Prod.snd).flatMap frame

/-- Every query written on the connection is shorter than its prefix can
say. -/
def Short (k : DotConn) : Prop := ∀ q ∈ k.queries, q.2.length < 65536

/-- Nothing is under way: whole frames have been written, each is answered
and every answer has been read. -/
structure Quiet (k : DotConn) : Prop where
  sent : k.sent = k.wire
  answered : k.replies.length = k.queries.length
  inbound : k.inbound = []

/-- What is left of a query has not been written. -/
structure Writing (k : DotConn) (msgBytes left : List UInt8) : Prop where
  unfinished : left ≠ []
  sent : ∃ done, done ++ left = frame msgBytes ∧ k.sent = k.wire ++ done
  answered : k.replies.length = k.queries.length
  inbound : k.inbound = []

/-- The last query, from call `i`, is not answered, or its answer has been
read as far as `got`. -/
structure Reading (k : DotConn) (i : Nat) (msgBytes got : List UInt8) : Prop where
  sent : k.sent = k.wire
  asked : k.queries.getLast? = some (i, msgBytes)
  reply : k.replies.length + 1 = k.queries.length ∧ k.inbound = [] ∧ got = [] ∨
    k.replies.length = k.queries.length ∧ k.inbound ≠ [] ∧
      ∃ payload, k.replies.getLast? = some payload ∧ payload.length < 65536 ∧
        got ++ k.inbound = frame payload

/-- The last query, from call `i`, has been answered with `msg`. -/
structure Answered (fromBytes : FromBytes) (k : DotConn) (i : Nat) (msgBytes : List UInt8)
    (msg : Message) : Prop where
  quiet : k.Quiet
  asked : k.queries.getLast? = some (i, msgBytes)
  reply : ∃ payload, k.replies.getLast? = some payload ∧ fromBytes payload = .ok msg

variable {k : DotConn} {msgBytes left got : List UInt8} {i : Nat}

theorem frames_sent (hk : k.Short) (h : k.sent = k.wire) :
    frames k.sent = k.queries.map Prod.snd := by
  rw [h, wire, ← List.append_nil (List.flatMap frame _)]
  have hempty : ([] : List UInt8) <+: frame [] := List.nil_prefix
  refine frames_flatMap ?_ (by decide) hempty (frame_ne_nil []).symm
  intro p hp
  obtain ⟨q, hq, rfl⟩ := List.mem_map.mp hp
  exact hk q hq

theorem Writing.frames_sent (h : k.Writing msgBytes left) (hk : k.Short)
    (hlen : msgBytes.length < 65536) : frames k.sent = k.queries.map Prod.snd := by
  obtain ⟨done, hdone, hsent⟩ := h.sent
  rw [hsent, wire]
  refine frames_flatMap ?_ hlen ⟨left, hdone⟩ ?_
  · intro p hp
    obtain ⟨q, hq, rfl⟩ := List.mem_map.mp hp
    exact hk q hq
  · intro heq
    rw [heq] at hdone
    exact h.unfinished (by simpa using hdone)

/-- A connection with no query under way gets no reply. -/
theorem Quiet.no_reply (h : k.Quiet) (hk : k.Short) :
    ¬ k.replies.length < (frames k.sent).length := by
  rw [DotConn.frames_sent hk h.sent, List.length_map, h.answered]
  exact Nat.lt_irrefl _

theorem Writing.no_reply (h : k.Writing msgBytes left) (hk : k.Short)
    (hlen : msgBytes.length < 65536) : ¬ k.replies.length < (frames k.sent).length := by
  rw [h.frames_sent hk hlen, List.length_map, h.answered]
  exact Nat.lt_irrefl _

theorem Quiet.startExchange (h : k.Quiet) (msgBytes : List UInt8) :
    k.Writing msgBytes (frame msgBytes) where
  unfinished := frame_ne_nil msgBytes
  sent := ⟨[], rfl, by rw [List.append_nil]; exact h.sent⟩
  answered := h.answered
  inbound := h.inbound

theorem Writing.write (h : k.Writing msgBytes left) {n : Nat} (hn : n < left.length) :
    { k with sent := k.sent ++ left.take n }.Writing msgBytes (left.drop n) where
  unfinished hnil := by
    have := congrArg List.length hnil
    rw [List.length_drop, List.length_nil] at this
    omega
  sent := by
    obtain ⟨done, hdone, hsent⟩ := h.sent
    refine ⟨done ++ left.take n, ?_, ?_⟩
    · rw [List.append_assoc, List.take_append_drop, hdone]
    · show k.sent ++ left.take n = k.wire ++ (done ++ left.take n)
      rw [hsent, List.append_assoc]
  answered := h.answered
  inbound := h.inbound

theorem Writing.writeAll (h : k.Writing msgBytes left) (i : Nat) :
    { k with sent := k.sent ++ left, queries := k.queries ++ [(i, msgBytes)] }.Reading i
      msgBytes [] where
  sent := by
    obtain ⟨done, hdone, hsent⟩ := h.sent
    show k.sent ++ left = ((k.queries ++ [(i, msgBytes)]).map Prod.snd).flatMap frame
    rw [hsent, List.append_assoc, hdone]
    simp [wire]
  asked := List.getLast?_concat
  reply := by
    refine .inl ⟨?_, h.inbound, rfl⟩
    rw [List.length_append, ← h.answered]
    rfl

/-- The one reply that is due arrives. -/
theorem Reading.reply_arrives (h : k.Reading i msgBytes got) (hk : k.Short)
    {payload : List UInt8} (hlen : payload.length < 65536)
    (hturn : k.replies.length < (frames k.sent).length) :
    { k with
      inbound := k.inbound ++ frame payload
      replies := k.replies ++ [payload] }.Reading i msgBytes got where
  sent := h.sent
  asked := h.asked
  reply := by
    rw [DotConn.frames_sent hk h.sent, List.length_map] at hturn
    rcases h.reply with ⟨hcount, hin, rfl⟩ | ⟨hcount, _⟩
    · refine .inr ⟨?_, ?_, payload, List.getLast?_concat, hlen, ?_⟩
      · rw [List.length_append]
        exact hcount
      · rw [hin]
        exact frame_ne_nil payload
      · rw [hin]
        rfl
    · omega

/-- Some bytes of the reply are read, and more are to come. -/
theorem Reading.read (h : k.Reading i msgBytes got) {n : Nat} (hn : n ≠ 0)
    (hlen : n ≤ k.inbound.length) (hw : wanted (got ++ k.inbound.take n) ≠ 0) :
    { k with inbound := k.inbound.drop n }.Reading i msgBytes (got ++ k.inbound.take n) where
  sent := h.sent
  asked := h.asked
  reply := by
    rcases h.reply with ⟨_, hin, _⟩ | ⟨hcount, hne, payload, hlast, hp, hframe⟩
    · rw [hin] at hlen
      simp at hlen
      exact absurd hlen hn
    · have hsplit : (got ++ k.inbound.take n) ++ k.inbound.drop n = frame payload := by
        rw [List.append_assoc, List.take_append_drop, hframe]
      refine .inr ⟨hcount, ?_, payload, hlast, hp, hsplit⟩
      intro hnil
      rw [show k.inbound.drop n = [] from hnil, List.append_nil] at hsplit
      exact hw ((wanted_eq_zero hp ⟨[], by rw [List.append_nil, hsplit]⟩).mpr hsplit)

/-- The last byte of the reply is read: it is this reply that the decoder
gets, and nothing is left behind. -/
theorem Reading.finish (h : k.Reading i msgBytes got) {n : Nat} (hn : n ≠ 0)
    (hlen : n ≤ k.inbound.length) (hw : wanted (got ++ k.inbound.take n) = 0)
    {fromBytes : FromBytes} {msg : Message}
    (hmsg : fromBytes ((got ++ k.inbound.take n).drop 2) = .ok msg) :
    { k with inbound := k.inbound.drop n }.Answered fromBytes i msgBytes msg := by
  rcases h.reply with ⟨_, hin, _⟩ | ⟨hcount, hne, payload, hlast, hp, hframe⟩
  · rw [hin] at hlen
    simp at hlen
    exact absurd hlen hn
  · have hsplit : (got ++ k.inbound.take n) ++ k.inbound.drop n = frame payload := by
      rw [List.append_assoc, List.take_append_drop, hframe]
    have hfull := (wanted_eq_zero hp ⟨_, hsplit⟩).mp hw
    refine ⟨⟨h.sent, hcount, ?_⟩, h.asked, payload, hlast, ?_⟩
    · rw [hfull] at hsplit
      simpa using hsplit
    · rw [hfull, drop_two_frame] at hmsg
      exact hmsg

end DotConn

/-! ## The invariant -/

/-- What a call knows of the connection it works on. -/
def DotCall.Uses (fromBytes : FromBytes) (i : Nat) (c : DotCall) (k : DotConn) : Prop :=
  match c.phase with
  | .write endpoint _ _ left => k.endpoint = endpoint ∧ k.Writing c.msgBytes left
  | .read endpoint _ _ got => k.endpoint = endpoint ∧ k.Reading i c.msgBytes got
  | .checkin endpoint _ msg => k.endpoint = endpoint ∧ k.Answered fromBytes i c.msgBytes msg
  | _ => True

namespace DotState

/-- A connection is idle or used by one call, never both; what is idle is
quiet. -/
structure Inv (fromBytes : FromBytes) (s : DotState) : Prop where
  short : ∀ (conn : Nat) (k : DotConn), s.conns[conn]? = some k → k.Short
  msgs : ∀ (i : Nat) (c : DotCall), s.calls[i]? = some c → c.msgBytes.length < 65536
  idle : ∀ e conn since, (conn, since) ∈ s.idle e →
    ∃ k, s.conns[conn]? = some k ∧ k.endpoint = e ∧ k.Quiet
  nodup : ∀ e, ((s.idle e).map Prod.fst).Nodup
  limit : ∀ e, (s.idle e).length ≤ dotMaxIdlePerEndpoint
  uses : ∀ (i : Nat) (c : DotCall) (conn : Nat), s.calls[i]? = some c →
    c.phase.conn? = some conn → ∃ k, s.conns[conn]? = some k ∧ c.Uses fromBytes i k
  notIdle : ∀ (i : Nat) (c : DotCall) (conn : Nat), s.calls[i]? = some c →
    c.phase.conn? = some conn → ∀ e since, (conn, since) ∉ s.idle e
  apart : ∀ (i j : Nat) (c d : DotCall) (conn : Nat), s.calls[i]? = some c →
    s.calls[j]? = some d → c.phase.conn? = some conn → d.phase.conn? = some conn → i = j

variable {toBytes : ToBytes} {fromBytes : FromBytes} {showAddr : SocketAddr → Str}
  {endpoints : List SocketAddr} {s s' : DotState} {ev : DotEvent}

theorem start_inv : Inv fromBytes {} where
  short conn k hk := by cases hk
  msgs i c hc := by cases hc
  idle e conn since h := by cases h
  nodup _ := List.nodup_nil
  limit _ := Nat.zero_le _
  uses i c conn hc := by cases hc
  notIdle i c conn hc := by cases hc
  apart i j c d conn hc := by cases hc

/-- No call has the connection. -/
def Unused (s : DotState) (conn : Nat) : Prop :=
  ∀ (i : Nat) (c : DotCall), s.calls[i]? = some c → c.phase.conn? ≠ some conn

theorem Inv.unused_of_idle (h : Inv fromBytes s) {e : SocketAddr} {conn since : Nat}
    (hidle : (conn, since) ∈ s.idle e) : s.Unused conn := by
  intro i c hc hconn
  exact h.notIdle i c conn hc hconn e since hidle

/-- A connection is idle under one endpoint. -/
theorem Inv.idle_endpoint (h : Inv fromBytes s) {e e' : SocketAddr} {conn since since' : Nat}
    (h₁ : (conn, since) ∈ s.idle e) (h₂ : (conn, since') ∈ s.idle e') : e = e' := by
  obtain ⟨k, hk, hke, _⟩ := h.idle e conn since h₁
  obtain ⟨k', hk', hke', _⟩ := h.idle e' conn since' h₂
  rw [hk] at hk'
  cases hk'
  rw [← hke, hke']

/-- **A call moves.** It may change its own connection and take entries
out of the pool; a connection it takes up is one that nobody has. -/
theorem Inv.move (h : Inv fromBytes s) {i : Nat} {c c' : DotCall} {conns : List DotConn}
    {idle : DotIdlePool} (hc : s.calls[i]? = some c) (hmsg : c'.msgBytes = c.msgBytes)
    (hshort : ∀ (conn : Nat) (k : DotConn), conns[conn]? = some k → k.Short)
    (hkeep : ∀ (conn : Nat) (k : DotConn), s.conns[conn]? = some k →
      c.phase.conn? ≠ some conn → conns[conn]? = some k)
    (hidle : ∀ e, (idle e).Sublist (s.idle e))
    (huse : ∀ conn, c'.phase.conn? = some conn →
      (∃ k, conns[conn]? = some k ∧ c'.Uses fromBytes i k) ∧
      (∀ e since, (conn, since) ∉ idle e) ∧ (c.phase.conn? = some conn ∨ s.Unused conn)) :
    Inv fromBytes { s with idle, conns, calls := s.calls.set i c' } where
  short := hshort
  msgs j d hd := by
    rcases getElem?_set_eq_some.mp hd with ⟨_, hd⟩ | ⟨rfl, _, rfl⟩
    · exact h.msgs j d hd
    · rw [hmsg]
      exact h.msgs j c hc
  idle e conn since hmem := by
    have hmem' := (hidle e).subset hmem
    obtain ⟨k, hk, hrest⟩ := h.idle e conn since hmem'
    exact ⟨k, hkeep conn k hk (h.unused_of_idle hmem' i c hc), hrest⟩
  nodup e := ((hidle e).map Prod.fst).nodup (h.nodup e)
  limit e := (hidle e).length_le.trans (h.limit e)
  uses j d conn hd hconn := by
    rcases getElem?_set_eq_some.mp hd with ⟨hj, hd⟩ | ⟨rfl, _, rfl⟩
    · obtain ⟨k, hk, hu⟩ := h.uses j d conn hd hconn
      exact ⟨k, hkeep conn k hk fun hcc => hj (h.apart j i d c conn hd hc hconn hcc), hu⟩
    · exact (huse conn hconn).1
  notIdle j d conn hd hconn e since hmem := by
    rcases getElem?_set_eq_some.mp hd with ⟨_, hd⟩ | ⟨rfl, _, rfl⟩
    · exact h.notIdle j d conn hd hconn e since ((hidle e).subset hmem)
    · exact (huse conn hconn).2.1 e since hmem
  apart j j' d d' conn hd hd' hconn hconn' := by
    have hold : ∀ (j : Nat) (d : DotCall), j ≠ i → s.calls[j]? = some d →
        d.phase.conn? = some conn → c'.phase.conn? ≠ some conn := by
      intro j d hj hd hconn hc'
      rcases (huse conn hc').2.2 with hcc | hun
      · exact hj (h.apart j i d c conn hd hc hconn hcc)
      · exact hun j d hd hconn
    rcases getElem?_set_eq_some.mp hd with ⟨hj, hds⟩ | ⟨rfl, _, rfl⟩
    · rcases getElem?_set_eq_some.mp hd' with ⟨_, hds'⟩ | ⟨rfl, _, rfl⟩
      · exact h.apart j j' d d' conn hds hds' hconn hconn'
      · exact absurd hconn' (hold j d hj hds hconn)
    · rcases getElem?_set_eq_some.mp hd' with ⟨hj', hds'⟩ | ⟨rfl, _, _⟩
      · exact absurd hconn (hold j' d' hj' hds' hconn')
      · rfl

/-- The form of `move` for a step on the call's own connection. -/
theorem Inv.move_own (h : Inv fromBytes s) {i conn : Nat} {c c' : DotCall} {k k' : DotConn}
    (hc : s.calls[i]? = some c) (hconn : c.phase.conn? = some conn)
    (hk : s.conns[conn]? = some k) (hmsg : c'.msgBytes = c.msgBytes) (hshort : k'.Short)
    (huse : ∀ conn', c'.phase.conn? = some conn' → conn' = conn ∧ c'.Uses fromBytes i k') :
    Inv fromBytes { s with conns := s.conns.set conn k', calls := s.calls.set i c' } := by
  refine h.move hc hmsg ?_ ?_ (fun _ => List.Sublist.refl _) ?_
  · intro j d hd
    rcases getElem?_set_eq_some.mp hd with ⟨_, hd⟩ | ⟨rfl, _, rfl⟩
    · exact h.short j d hd
    · exact hshort
  · intro j d hd hne
    refine getElem?_set_eq_some.mpr (.inl ⟨?_, hd⟩)
    rintro rfl
    exact hne hconn
  · intro conn' hconn'
    obtain ⟨rfl, hu⟩ := huse conn' hconn'
    refine ⟨⟨k', ?_, hu⟩, h.notIdle i c conn' hc hconn, .inl hconn⟩
    exact getElem?_set_of_some hk k'

/-- What a call knows of its connection, at the connection itself. -/
theorem Inv.uses_of (h : Inv fromBytes s) {i conn : Nat} {c : DotCall} {k : DotConn}
    (hc : s.calls[i]? = some c) (hconn : c.phase.conn? = some conn)
    (hk : s.conns[conn]? = some k) : c.Uses fromBytes i k := by
  obtain ⟨k', hk', hu⟩ := h.uses i c conn hc hconn
  rw [hk] at hk'
  cases hk'
  exact hu

theorem Inv.call (h : Inv fromBytes s) {c : DotCall} (hrel : c.phase.Released)
    (hmsg : c.msgBytes.length < 65536) :
    Inv fromBytes { s with calls := s.calls ++ [c] } := by
  have hnew : ∀ (j : Nat) (d : DotCall) (conn : Nat), (s.calls ++ [c])[j]? = some d →
      d.phase.conn? = some conn → s.calls[j]? = some d := by
    intro j d conn hd hconn
    rcases getElem?_concat_eq_some.mp hd with hd | ⟨_, rfl⟩
    · exact hd
    · rw [hrel.conn] at hconn
      cases hconn
  refine { h with msgs := ?_, uses := ?_, notIdle := ?_, apart := ?_ }
  · intro j d hd
    rcases getElem?_concat_eq_some.mp hd with hd | ⟨_, rfl⟩
    · exact h.msgs j d hd
    · exact hmsg
  · intro j d conn hd hconn
    exact h.uses j d conn (hnew j d conn hd hconn) hconn
  · intro j d conn hd hconn
    exact h.notIdle j d conn (hnew j d conn hd hconn) hconn
  · intro j j' d d' conn hd hd' hconn hconn'
    exact h.apart j j' d d' conn (hnew j d conn hd hconn) (hnew j' d' conn hd' hconn') hconn
      hconn'

theorem Inv.release (h : Inv fromBytes s) {i : Nat} {c c' : DotCall} {idle : DotIdlePool}
    (hc : s.calls[i]? = some c) (hmsg : c'.msgBytes = c.msgBytes)
    (hconn : c'.phase.conn? = none) (hidle : ∀ e, (idle e).Sublist (s.idle e)) :
    Inv fromBytes { s with idle, calls := s.calls.set i c' } := by
  refine h.move hc hmsg h.short (fun _ _ hk _ => hk) hidle ?_
  intro conn hsome
  rw [hconn] at hsome
  cases hsome

/-- A connection from the pool. -/
theorem Inv.checkout (h : Inv fromBytes s) {i conn : Nat} {c : DotCall} {endpoint : SocketAddr}
    {conns : List (Nat × Nat)} (hc : s.calls[i]? = some c)
    (hpop : popFresh s.now (s.idle endpoint) = (some conn, conns)) :
    Inv fromBytes { s with
      idle := Function.update s.idle endpoint conns
      calls := s.calls.set i (c.startExchange endpoint conn true) } := by
  obtain ⟨dropped, since, hlist, _⟩ := popFresh_some hpop
  have hmem : (conn, since) ∈ s.idle endpoint := by
    rw [hlist]
    exact List.mem_append_right _ List.mem_cons_self
  refine h.move hc rfl h.short (fun _ _ hk _ => hk) ?_ ?_
  · intro e
    by_cases he : e = endpoint
    · rw [he, Function.update_self, hlist]
      exact (List.sublist_cons_self _ _).trans (List.sublist_append_right _ _)
    · rw [Function.update_of_ne he]
  · intro conn' hconn'
    cases hconn'
    obtain ⟨k, hk, hke, hquiet⟩ := h.idle endpoint conn since hmem
    refine ⟨⟨k, hk, hke, hquiet.startExchange c.msgBytes⟩, ?_, .inr (h.unused_of_idle hmem)⟩
    intro e since' hmem'
    by_cases he : e = endpoint
    · -- a second entry of the connection under the same endpoint
      rw [he, Function.update_self] at hmem'
      have hnd := h.nodup endpoint
      rw [hlist, List.map_append, List.nodup_append] at hnd
      exact (List.nodup_cons.mp hnd.2.1).1 (List.mem_map.mpr ⟨(conn, since'), hmem', rfl⟩)
    · rw [Function.update_of_ne he] at hmem'
      exact he (h.idle_endpoint hmem' hmem)

/-- A new connection. -/
theorem Inv.connect (h : Inv fromBytes s) {i : Nat} {c : DotCall} (endpoint : SocketAddr)
    (hc : s.calls[i]? = some c) :
    Inv fromBytes { s with
      conns := s.conns ++ [{ endpoint }]
      calls := s.calls.set i (c.startExchange endpoint s.conns.length false) } := by
  have hnew : ∀ (k : DotConn), s.conns[s.conns.length]? ≠ some k := by
    intro k hk
    exact absurd (List.getElem?_eq_some_iff.mp hk).1 (Nat.lt_irrefl _)
  refine h.move hc rfl ?_ ?_ (fun _ => List.Sublist.refl _) ?_
  · intro conn k hk
    rcases getElem?_concat_eq_some.mp hk with hk | ⟨_, rfl⟩
    · exact h.short conn k hk
    · intro q hq
      cases hq
  · intro conn k hk _
    exact getElem?_concat_eq_some.mpr (.inl hk)
  · intro conn hconn
    cases hconn
    refine ⟨⟨{ endpoint }, getElem?_concat_eq_some.mpr (.inr ⟨rfl, rfl⟩), rfl, ?_⟩, ?_, .inr ?_⟩
    · exact DotConn.Quiet.startExchange ⟨rfl, rfl, rfl⟩ c.msgBytes
    · intro e since hmem
      obtain ⟨k, hk, _⟩ := h.idle e _ since hmem
      exact hnew k hk
    · intro j d hd hconn
      obtain ⟨k, hk, _⟩ := h.uses j d _ hd hconn
      exact hnew k hk

/-- A connection goes back to the pool. -/
theorem Inv.checkin (h : Inv fromBytes s) {i conn : Nat} {c : DotCall} {endpoint : SocketAddr}
    {msg : Message} (hc : s.calls[i]? = some c) (hph : c.phase = .checkin endpoint conn msg)
    (hroom : (s.idle endpoint).length < dotMaxIdlePerEndpoint) :
    Inv fromBytes { s with
      idle := Function.update s.idle endpoint ((conn, s.now) :: s.idle endpoint)
      calls := s.calls.set i { c with phase := .returned (.ok msg) } } := by
  have hconn : c.phase.conn? = some conn := by
    rw [hph]
    rfl
  obtain ⟨k, hk, hu⟩ := h.uses i c conn hc hconn
  rw [DotCall.Uses, hph] at hu
  -- the call lets go of the connection first
  have hrel : Inv fromBytes { s with
      calls := s.calls.set i { c with phase := .returned (.ok msg) } } :=
    h.release hc rfl rfl fun _ => List.Sublist.refl _
  have hcases : ∀ e conn' since,
      (conn', since) ∈ Function.update s.idle endpoint ((conn, s.now) :: s.idle endpoint) e →
        (e = endpoint ∧ conn' = conn) ∨ (conn', since) ∈ s.idle e := by
    intro e conn' since hmem
    by_cases he : e = endpoint
    · subst he
      rw [Function.update_self] at hmem
      rcases List.mem_cons.mp hmem with heq | hmem
      · cases heq
        exact .inl ⟨rfl, rfl⟩
      · exact .inr hmem
    · rw [Function.update_of_ne he] at hmem
      exact .inr hmem
  refine { hrel with idle := ?_, nodup := ?_, limit := ?_, notIdle := ?_ }
  · intro e conn' since hmem
    rcases hcases e conn' since hmem with ⟨rfl, rfl⟩ | hmem
    · exact ⟨k, hk, hu.1, hu.2.quiet⟩
    · exact h.idle e conn' since hmem
  · intro e
    show ((Function.update s.idle endpoint ((conn, s.now) :: s.idle endpoint) e).map
      Prod.fst).Nodup
    by_cases he : e = endpoint
    · subst he
      rw [Function.update_self, List.map_cons, List.nodup_cons]
      refine ⟨?_, h.nodup e⟩
      intro hmem
      obtain ⟨⟨_, since⟩, hx, rfl⟩ := List.mem_map.mp hmem
      exact h.notIdle i c _ hc hconn e since hx
    · rw [Function.update_of_ne he]
      exact h.nodup e
  · intro e
    show (Function.update s.idle endpoint ((conn, s.now) :: s.idle endpoint) e).length ≤ _
    by_cases he : e = endpoint
    · subst he
      rw [Function.update_self]
      exact hroom
    · rw [Function.update_of_ne he]
      exact h.limit e
  · intro j d conn' hd hconn' e since hmem
    rcases hcases e conn' since hmem with ⟨rfl, rfl⟩ | hmem
    · rcases getElem?_set_eq_some.mp hd with ⟨hj, hd⟩ | ⟨rfl, _, rfl⟩
      · exact hj (h.apart j i d c conn' hd hc hconn' hconn)
      · cases hconn'
    · exact hrel.notIdle j d conn' hd hconn' e since hmem

/-- A reply in turn reaches the one call that waits for it. -/
theorem Inv.reply (h : Inv fromBytes s) {conn : Nat} {payload : List UInt8} {k : DotConn}
    (hk : s.conns[conn]? = some k) (hturn : s.RepliesInTurn conn payload) :
    Inv fromBytes { s with
      conns := s.conns.set conn
        { k with inbound := k.inbound ++ frame payload, replies := k.replies ++ [payload] } } := by
  obtain ⟨hlen, hturn⟩ := hturn
  have hless := hturn k hk
  have hshort := h.short conn k hk
  refine { h with short := ?_, idle := ?_, uses := ?_ }
  · intro j d hd
    rcases getElem?_set_eq_some.mp hd with ⟨_, hd⟩ | ⟨rfl, _, rfl⟩
    · exact h.short j d hd
    · exact hshort
  · intro e j since hmem
    obtain ⟨d, hd, hde, hquiet⟩ := h.idle e j since hmem
    refine ⟨d, getElem?_set_eq_some.mpr (.inl ⟨?_, hd⟩), hde, hquiet⟩
    rintro rfl
    rw [hk] at hd
    cases hd
    exact hquiet.no_reply hshort hless
  · intro i c j hc hconn
    obtain ⟨d, hd, hu⟩ := h.uses i c j hc hconn
    by_cases hj : j = conn
    · subst hj
      rw [hk] at hd
      cases hd
      refine ⟨_, getElem?_set_of_some hk _, ?_⟩
      unfold DotCall.Uses at hu ⊢
      split at hu
      · exact absurd hless (hu.2.no_reply hshort (h.msgs i c hc))
      · exact ⟨hu.1, hu.2.reply_arrives hshort hlen hless⟩
      · exact absurd hless (hu.2.quiet.no_reply hshort)
      · trivial
    · exact ⟨d, getElem?_set_eq_some.mpr (.inl ⟨hj, hd⟩), hu⟩

/-- Bytes are read. -/
theorem Inv.read (h : Inv fromBytes s) {i n conn : Nat} {c : DotCall} {endpoint : SocketAddr}
    {pooled : Bool} {got : List UInt8} {k : DotConn} (hc : s.calls[i]? = some c)
    (hph : c.phase = .read endpoint conn pooled got) (hk : s.conns[conn]? = some k)
    (hn : n ≠ 0) (hlen : n ≤ k.inbound.length) :
    Inv fromBytes { s with
      conns := s.conns.set conn { k with inbound := k.inbound.drop n }
      calls := s.calls.set i
        (c.received showAddr fromBytes endpoint conn pooled (got ++ k.inbound.take n)) } := by
  have hconn : c.phase.conn? = some conn := by
    rw [hph]
    rfl
  have hu := h.uses_of hc hconn hk
  rw [DotCall.Uses, hph] at hu
  obtain ⟨hke, hreading⟩ := hu
  unfold DotCall.received
  split
  · rename_i hw
    split
    · rename_i msg hmsg
      refine h.move_own hc hconn hk rfl (h.short conn k hk) ?_
      intro conn' hconn'
      cases hconn'
      exact ⟨rfl, hke, hreading.finish hn hlen hw hmsg⟩
    · rename_i e he
      refine h.move_own hc hconn hk (c.msgBytes_failExchange endpoint pooled _)
        (h.short conn k hk) ?_
      intro conn' hconn'
      rw [(c.released_failExchange endpoint pooled _).conn] at hconn'
      cases hconn'
  · rename_i hw
    refine h.move_own hc hconn hk rfl (h.short conn k hk) ?_
    intro conn' hconn'
    cases hconn'
    exact ⟨rfl, hke, hreading.read hn hlen hw⟩

/-- Every step keeps the invariant. -/
theorem Inv.step (h : Inv fromBytes s)
    (hst : Steps toBytes fromBytes showAddr endpoints s ev s')
    (hlen : ∀ message bytes, ev = .call message → toBytes message = .ok bytes →
      bytes.length ≤ 65535)
    (hturn : ∀ conn payload, ev = .reply conn payload → s.RepliesInTurn conn payload) :
    Inv fromBytes s' := by
  cases hst with
  | call message =>
      refine h.call (DotCall.released_new toBytes endpoints message) ?_
      unfold DotCall.new
      split
      · rename_i bytes hbytes
        have := hlen message bytes rfl hbytes
        show bytes.length < 65536
        omega
      · exact Nat.zero_lt_succ _
  | release _ i c c' idle hc hrel hmsg hidle => exact h.release hc hmsg hrel.conn hidle
  | checkout i c endpoint conn conns hc hph hpop => exact h.checkout hc hpop
  | connect i c endpoint hc hph => exact h.connect endpoint hc
  | write i n c endpoint conn pooled left k hc hph hk hn =>
      have hconn : c.phase.conn? = some conn := by
        rw [hph]
        rfl
      have hu := h.uses_of hc hconn hk
      rw [DotCall.Uses, hph] at hu
      refine h.move_own hc hconn hk rfl (h.short conn k hk) ?_
      intro conn' hconn'
      cases hconn'
      exact ⟨rfl, hu.1, hu.2.write hn⟩
  | writeAll i c endpoint conn pooled left k hc hph hk =>
      have hconn : c.phase.conn? = some conn := by
        rw [hph]
        rfl
      have hu := h.uses_of hc hconn hk
      rw [DotCall.Uses, hph] at hu
      refine h.move_own hc hconn hk rfl ?_ ?_
      · intro q hq
        rcases List.mem_append.mp hq with hq | hq
        · exact h.short conn k hk q hq
        · cases List.mem_singleton.mp hq
          exact h.msgs i c hc
      · intro conn' hconn'
        cases hconn'
        exact ⟨rfl, hu.1, hu.2.writeAll i⟩
  | read i n c endpoint conn pooled got k hc hph hk hn hlen' => exact h.read hc hph hk hn hlen'
  | checkin i c endpoint conn msg hc hph =>
      split
      · rename_i hroom
        exact h.checkin hc hph hroom
      · exact h.release hc rfl rfl fun _ => List.Sublist.refl _
  | reply conn payload k hk => exact h.reply hk (hturn conn payload rfl)
  | tick d => exact { h with }

theorem received_notOk (c : DotCall) (endpoint : SocketAddr) (conn : Nat) (pooled : Bool)
    (got : List UInt8) (msg : Message) :
    (c.received showAddr fromBytes endpoint conn pooled got).phase ≠ .returned (.ok msg) := by
  unfold DotCall.received
  split
  · split
    · exact DotPhase.noConfusion
    · exact (c.released_failExchange endpoint pooled _).notOk msg
  · exact DotPhase.noConfusion

/-- A query succeeds only by returning a connection on which its own reply
was the last thing read. -/
theorem Steps.success (hst : Steps toBytes fromBytes showAddr endpoints s ev s')
    (h : Inv fromBytes s) {i : Nat} {c c' : DotCall} {msg : Message}
    (hc : s.calls[i]? = some c) (hrunning : ∀ result, c.phase ≠ .returned result)
    (hc' : s'.calls[i]? = some c') (hok : c'.phase = .returned (.ok msg)) :
    ∃ endpoint conn k, c.phase = .checkin endpoint conn msg ∧ s.conns[conn]? = some k ∧
      k.endpoint = endpoint ∧ k.Answered fromBytes i c.msgBytes msg := by
  have hne : s.calls[i]? ≠ some c' := by
    intro heq
    rw [hc] at heq
    cases heq
    exact hrunning _ hok
  -- a call that moves elsewhere than to a success is not the one
  have hother : ∀ (j : Nat) (d' : DotCall), s'.calls = s.calls.set j d' →
      d'.phase ≠ .returned (.ok msg) → False := by
    intro j d' heq hd'
    rw [heq] at hc'
    rcases getElem?_set_eq_some.mp hc' with ⟨_, hc'⟩ | ⟨_, _, rfl⟩
    · exact hne hc'
    · exact hd' hok
  cases hst with
  | call message =>
      rcases getElem?_concat_eq_some.mp hc' with hc' | ⟨rfl, _⟩
      · exact absurd hc' hne
      · exact absurd (List.getElem?_eq_some_iff.mp hc).1 (Nat.lt_irrefl _)
  | release _ j d d' idle hd hrel hmsg hidle => exact (hother j d' rfl (hrel.notOk msg)).elim
  | checkout j d endpoint conn conns hd hph hpop =>
      exact (hother j _ rfl DotPhase.noConfusion).elim
  | connect j d endpoint hd hph => exact (hother j _ rfl DotPhase.noConfusion).elim
  | write j n d endpoint conn pooled left k hd hph hk hn =>
      exact (hother j _ rfl DotPhase.noConfusion).elim
  | writeAll j d endpoint conn pooled left k hd hph hk =>
      exact (hother j _ rfl DotPhase.noConfusion).elim
  | read j n d endpoint conn pooled got k hd hph hk hn hlen =>
      exact (hother j _ rfl (received_notOk d endpoint conn pooled _ msg)).elim
  | checkin j d endpoint conn msg' hd hph =>
      rcases getElem?_set_eq_some.mp hc' with ⟨_, hc'⟩ | ⟨rfl, _, rfl⟩
      · exact absurd hc' hne
      · cases hok
        cases Option.some_inj.mp (hd.symm.trans hc)
        obtain ⟨k, hk, hu⟩ := h.uses _ c conn hc (by rw [hph]; rfl)
        rw [DotCall.Uses, hph] at hu
        exact ⟨endpoint, conn, k, hph, hk, hu⟩
  | reply conn payload k hk => exact absurd hc' hne
  | tick d => exact absurd hc' hne

/-- What `checkout` hands out has been idle for less than the limit. -/
theorem checkout_age {i conn : Nat} {endpoint : SocketAddr} {pooled : Bool}
    {left : List UInt8} {c' : DotCall}
    (h : step toBytes fromBytes showAddr endpoints s (.checkout i) = some s')
    (hc' : s'.calls[i]? = some c') (hph' : c'.phase = .write endpoint conn pooled left) :
    ∃ since, (conn, since) ∈ s.idle endpoint ∧ s.now - since < dotIdleMaxAge := by
  obtain ⟨c, hc, h⟩ := Option.bind_eq_some_iff.mp h
  split at h
  · rename_i endpoint' hph
    cases hpop : popFresh s.now (s.idle endpoint') with
    | mk found conns =>
        rw [hpop] at h
        cases found with
        | none =>
            cases h
            rcases getElem?_set_eq_some.mp hc' with ⟨hne, _⟩ | ⟨_, _, rfl⟩
            · exact absurd rfl hne
            · cases hph'
        | some found =>
            cases h
            rcases getElem?_set_eq_some.mp hc' with ⟨hne, _⟩ | ⟨_, _, rfl⟩
            · exact absurd rfl hne
            · cases hph'
              obtain ⟨dropped, since, hlist, hage⟩ := popFresh_some hpop
              refine ⟨since, ?_, hage⟩
              rw [hlist]
              exact List.mem_append_right _ List.mem_cons_self
  · cases h

/-- The invariant in every state of a run whose peers reply in turn. -/
theorem passes_inv {es : List DotEvent}
    (hlen : ∀ message bytes, DotEvent.call message ∈ es → toBytes message = .ok bytes →
      bytes.length ≤ 65535)
    (hpeer : ∀ s conn payload s',
      Takes (step toBytes fromBytes showAddr endpoints) {} es s (.reply conn payload) s' →
        s.RepliesInTurn conn payload)
    (hs : Passes (step toBytes fromBytes showAddr endpoints) {} es s) : Inv fromBytes s := by
  refine hs.invariant start_inv ?_
  intro s ev s' ht h
  refine h.step (steps ht.step_eq) ?_ ?_
  · intro message bytes hev hbytes
    exact hlen message bytes (hev ▸ ht.mem) hbytes
  · intro conn payload hev
    subst hev
    exact hpeer s conn payload s' ht

end DotState

/-- **Replies stay with their queries.** In every run in which every peer
sends at most one framed reply per framed query and in order, and encoded
messages are at most 65535 bytes: the idle pool holds no connection twice
and none that is in use; an idle connection was opened to the endpoint it
is kept for, no byte of it is unread and no query on it unanswered; no
endpoint has more than `DOT_MAX_IDLE_PER_ENDPOINT` of them; `checkout`
hands out only what has been idle for less than `DOT_IDLE_MAX_AGE`; and a
query that succeeds returns the reply to its own framed message, the last
one written on its connection. -/
theorem dot_replies_stay_with_queries (toBytes : ToBytes) (fromBytes : FromBytes)
    (showAddr : SocketAddr → Str) (endpoints : List SocketAddr) (es : List DotEvent)
    (hlen : ∀ message bytes, DotEvent.call message ∈ es → toBytes message = .ok bytes →
      bytes.length ≤ 65535)
    (hpeer : ∀ s conn payload s',
      Takes (DotState.step toBytes fromBytes showAddr endpoints) {} es s
        (.reply conn payload) s' → s.RepliesInTurn conn payload) :
    (∀ s, Passes (DotState.step toBytes fromBytes showAddr endpoints) {} es s →
      (∀ e, ((s.idle e).map Prod.fst).Nodup ∧ (s.idle e).length ≤ dotMaxIdlePerEndpoint) ∧
      ∀ e conn since, (conn, since) ∈ s.idle e →
        (∀ e' since', (conn, since') ∈ s.idle e' → e' = e) ∧ s.Unused conn ∧
        ∃ k, s.conns[conn]? = some k ∧ k.endpoint = e ∧ k.inbound = [] ∧
          k.replies.length = (frames k.sent).length) ∧
    ∀ s ev s', Takes (DotState.step toBytes fromBytes showAddr endpoints) {} es s ev s' →
      ∀ (i : Nat) (c c' : DotCall), s.calls[i]? = some c → s'.calls[i]? = some c' →
        (∀ endpoint conn left, ev = .checkout i →
          c'.phase = .write endpoint conn true left → ∃ since,
            (conn, since) ∈ s.idle endpoint ∧ s.now - since < dotIdleMaxAge) ∧
        ((∀ result, c.phase ≠ .returned result) → ∀ msg, c'.phase = .returned (.ok msg) →
          ∃ endpoint conn k payload, c.phase = .checkin endpoint conn msg ∧
            s.conns[conn]? = some k ∧ k.endpoint = endpoint ∧
            frames k.sent = k.queries.map Prod.snd ∧
            k.queries.getLast? = some (i, c.msgBytes) ∧
            k.replies.length = k.queries.length ∧ k.replies.getLast? = some payload ∧
            fromBytes payload = .ok msg) := by
  refine ⟨?_, ?_⟩
  · intro s hs
    have h := DotState.passes_inv hlen hpeer hs
    refine ⟨fun e => ⟨h.nodup e, h.limit e⟩, ?_⟩
    intro e conn since hmem
    -- an idle connection has been read to the end of its last reply
    obtain ⟨k, hk, hke, hquiet⟩ := h.idle e conn since hmem
    refine ⟨fun e' since' hmem' => h.idle_endpoint hmem' hmem, h.unused_of_idle hmem, k, hk,
      hke, hquiet.inbound, ?_⟩
    rw [DotConn.frames_sent (h.short conn k hk) hquiet.sent, List.length_map]
    exact hquiet.answered
  · intro s ev s' ht i c c' hc hc'
    have h := DotState.passes_inv hlen hpeer ht.source
    have hst := DotState.steps ht.step_eq
    refine ⟨?_, ?_⟩
    · intro endpoint conn left hev hph
      subst hev
      exact DotState.checkout_age ht.step_eq hc' hph
    -- a call succeeds out of `checkin` only, on a connection that was asked by it last
    · intro hrunning msg hok
      obtain ⟨endpoint, conn, k, hph, hk, hke, hans⟩ := hst.success h hc hrunning hc' hok
      obtain ⟨payload, hlast, hmsg⟩ := hans.reply
      exact ⟨endpoint, conn, k, payload, hph, hk, hke,
        DotConn.frames_sent (h.short conn k hk) hans.quiet.sent, hans.asked,
        hans.quiet.answered, hlast, hmsg⟩

/-! A second query on the connection of a first one, in messages that are
a header only. -/

/-- The encoder on headers. -/
def headerBytes : ToBytes := fun m =>
  .ok (u16Bytes m.id ++ (if m.messageType = .response then 0x80 else 0) :: List.replicate 9 0)

/-- The decoder: of any message its ID and its type. -/
def headerOfBytes : FromBytes := fun bytes =>
  if bytes.length < 12 then .error "unexpected end of input reached".toList
  else .ok {
    id := UInt16.ofNat (u16OfBytes (bytes.take 2))
    messageType := if bytes[2]? = some 0x80 then .response else .query }

def quad9 : SocketAddr := ⟨.v4 0x09090909, 853⟩

/-- Two calls, the second over the connection of the first. -/
def dotRun : List DotEvent :=
  [.call { id := 1 }, .checkout 0, .connect 0 (.ok ()), .write 0 14,
   .reply 0 (0 :: 1 :: 0x80 :: List.replicate 9 0), .read 0 2, .read 0 12, .checkin 0,
   .tick 1000000000, .call { id := 2 }, .checkout 1, .write 1 5, .write 1 9,
   .reply 0 (0 :: 2 :: 0x80 :: List.replicate 9 0), .read 1 2, .read 1 12]

/-- A reply comes in turn, as a test along a run. -/
def repliesInTurn (s : DotState) : DotEvent → Bool
  | .reply conn payload => decide (payload.length < 65536) &&
      s.conns[conn]?.all fun k => decide (k.replies.length < (frames k.sent).length)
  | _ => true

theorem dot_replies_stay_with_queries_reuse :
    ∃ s s' k, Takes (DotState.step headerBytes headerOfBytes (fun _ => []) [quad9]) {}
        (dotRun ++ [.checkin 1]) s (.checkin 1) s' ∧
      s'.calls.map (·.phase) =
        [.returned (.ok { id := 1, messageType := .response }),
         .returned (.ok { id := 2, messageType := .response })] ∧
      s.conns = [k] ∧ k.queries.getLast? = some (1, 0 :: 2 :: List.replicate 10 0) := by
  have hbefore : (run (DotState.step headerBytes headerOfBytes (fun _ => []) [quad9]) {}
      dotRun).map (fun s => (s.calls.map (fun c => (c.phase, c.msgBytes)), s.conns.length)) =
      some ([(.returned (.ok { id := 1, messageType := .response }),
          0 :: 1 :: List.replicate 10 0),
        (.checkin quad9 0 { id := 2, messageType := .response },
          0 :: 2 :: List.replicate 10 0)], 1) := by
    decide +kernel
  have hafter : (run (DotState.step headerBytes headerOfBytes (fun _ => []) [quad9]) {}
      (dotRun ++ [.checkin 1])).map (fun s => s.calls.map (·.phase)) =
      some [.returned (.ok { id := 1, messageType := .response }),
        .returned (.ok { id := 2, messageType := .response })] := by
    decide +kernel
  have halong : along (DotState.step headerBytes headerOfBytes (fun _ => []) [quad9])
      repliesInTurn {} (dotRun ++ [.checkin 1]) = true := by
    decide +kernel
  obtain ⟨s, hs, heq⟩ := Option.map_eq_some_iff.mp hbefore
  obtain ⟨hcalls, hconns⟩ := Prod.mk.inj heq
  rw [run_concat hs] at hafter
  obtain ⟨s', hstep, hphases⟩ := Option.map_eq_some_iff.mp hafter
  have ht := Takes.last hs hstep
  -- the second call before and after its last step
  have hget := congrArg (·[1]?) hcalls
  have hget' := congrArg (·[1]?) hphases
  simp only [List.getElem?_map, Option.map_eq_some_iff, List.getElem?_cons_succ,
    List.getElem?_cons_zero] at hget hget'
  obtain ⟨c, hc, hcall⟩ := hget
  obtain ⟨c', hc', hphase⟩ := hget'
  obtain ⟨hph, hmsg⟩ := Prod.mk.inj hcall
  obtain ⟨k, hk⟩ := List.length_eq_one_iff.mp hconns
  have hpeer : ∀ s conn payload s',
      Takes (DotState.step headerBytes headerOfBytes (fun _ => []) [quad9]) {}
        (dotRun ++ [.checkin 1]) s (.reply conn payload) s' → s.RepliesInTurn conn payload := by
    intro s conn payload s' ht
    have htest := test_of_along halong ht
    rw [repliesInTurn, Bool.and_eq_true, decide_eq_true_eq, Option.all_eq_true] at htest
    exact ⟨htest.1, fun k hk => of_decide_eq_true (htest.2 k hk)⟩
  obtain ⟨endpoint, conn, k', payload, hph', hk', _, _, hlast, _⟩ :=
    ((dot_replies_stay_with_queries headerBytes headerOfBytes (fun _ => []) [quad9]
      (dotRun ++ [.checkin 1]) (by
        intro message bytes _ hbytes
        cases hbytes
        simp [u16Bytes]) hpeer).2 s (.checkin 1) s' ht 1 c c' hc hc').2
      (by rw [hph]; exact fun _ => DotPhase.noConfusion) _ hphase
  rw [hph] at hph'
  cases hph'
  rw [hk] at hk'
  cases hk'
  rw [hmsg] at hlast
  exact ⟨s, s', k, ht, hphases, hk, hlast⟩

end Dotdns
