import CAres.Proof.SockState
import CAres.Spec.Completion

/-! # The sockets the embedder watches

`Reachable.sockInv` gives, in every state of every run, what the embedder has last been told
about each socket through `sock_state_cb`: a socket is reported readable exactly while
`connnode_by_socket` registers it, so `read_packets` finds a connection for every socket the
embedder watches, and a socket that has been closed was last reported not readable; a socket
never opened has never been reported (`socket_read_interest`). It also gives that a server's
open TCP connection is the one its `tcp_conn` names, so a server never has two
(`tcp_conn_unique`). `Reachable.inv` gives the tables that lead from a socket to its
connection and from a server to its connections: `connnode_by_socket` registers exactly the
open sockets, and a server's connection list holds each of its open connections once and
nothing else (`connection_tables_exact`). -/

namespace CAres

variable {cfg : Config} {env : Env} {ch : Channel}

theorem Wf.isSome_connnode (hw : Wf cfg ch) (fd : Nat) :
    (ch.connnodeBySocket fd).isSome = (ch.conns fd).isSome := by
  rcases h : ch.connnodeBySocket fd with _ | c
  · rcases hc : ch.conns fd with _ | conn
    · rfl
    · have hs : ch.connnodeBySocket fd = some fd := hw.socket.mpr ⟨rfl, by simp [hc]⟩
      rw [h] at hs
      cases hs
  · obtain ⟨rfl, hs⟩ := hw.socket.mp h
    exact hs.symm

/-- In every state of every run, the newest read-interest flag reported for socket `fd` says
whether `connnode_by_socket` registers it, once the socket has been opened; a socket never
opened has never been reported. -/
theorem socket_read_interest (hr : Reachable cfg env ch) (fd : Nat) :
    lastRead fd ch.trace =
      if fd < ch.nextConn then some (ch.connnodeBySocket fd).isSome else none := by
  rw [hr.sockInv.view fd, hr.inv.wf.isSome_connnode fd]

theorem socket_read_interest_tcIdle :
    Reachable loopCfg tcEnv tcIdle ∧ lastRead 0 tcIdle.trace = some false := by
  have r : Reachable loopCfg tcEnv tcIdle :=
    .process _ _ _ _ _ (.process _ _ _ _ _ (.process _ _ _ _ _ tcSent_reachable))
  exact ⟨r, by rw [socket_read_interest r 0]; decide⟩

/-- In every state of every run, connection `c` is an open TCP connection of server `i`
exactly when it is server `i`'s `tcp_conn`: so each server has at most one open TCP
connection. -/
theorem tcp_conn_unique (hr : Reachable cfg env ch) (i : Nat) (c : ConnId) :
    (∃ conn, ch.conns c = some conn ∧ conn.server = i ∧ conn.isTcp = true) ↔
      (ch.servers i).tcpConn = some c := by
  have si := hr.sockInv
  constructor
  · rintro ⟨conn, hc, rfl, ht⟩
    exact si.tcp_unique hc ht
  · exact si.tcp_conn

theorem tcp_conn_unique_tcTwice :
    Reachable loopCfg tcEnv tcTwice ∧ (tcTwice.servers 0).tcpConn = some 1 ∧
      ∃ conn, tcTwice.conns 1 = some conn ∧ conn.server = 0 ∧ conn.isTcp = true :=
  ⟨tcTwice_reachable, by decide, (tcp_conn_unique tcTwice_reachable 0 1).mpr (by decide)⟩

/-- In every state of every run, `connnode_by_socket` maps a socket to its connection exactly
when the connection is open, and server `i`'s connection list holds connection `c` once if `c`
is an open connection of server `i`, and not at all otherwise. -/
theorem connection_tables_exact (hr : Reachable cfg env ch) (fd i : Nat) :
    ch.connnodeBySocket fd = (if (ch.conns fd).isSome then some fd else none) ∧
      (ch.servers i).connections.count fd =
        if (ch.conns fd).map Conn.server = some i then 1 else 0 := by
  have hw := hr.inv.wf
  refine ⟨?_, ?_⟩
  · split
    · exact hw.socket.mpr ⟨rfl, ‹_›⟩
    · rcases h : ch.connnodeBySocket fd with _ | c
      · rfl
      · obtain ⟨rfl, hs⟩ := hw.socket.mp h
        contradiction
  · have hmem : fd ∈ (ch.servers i).connections ↔ (ch.conns fd).map Conn.server = some i := by
      rw [hw.mem_connections, Option.map_eq_some']
    split
    · exact List.count_eq_one_of_mem (hw.connections_nodup i) (hmem.mpr ‹_›)
    · exact List.count_eq_zero.mpr (mt hmem.mp ‹_›)

end CAres
