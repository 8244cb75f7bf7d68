import Mathlib.Data.List.Chain
import FluentSql.Execution.Connection
import FluentSql.Proofs.Regular

/-!
# Grammars that connections share

A connection and its grammar both keep the table prefix.  Every call on a
connection tells both, but a grammar may be used by several connections, and
then the others are not told.

* `PrefixCall` are the calls that make grammars, connections and queries and
  that set grammars and prefixes.
* `Store.Agrees` says that a connection and its grammar have one prefix, and
  `Store.SharedAlike` that connections with one grammar do.
* `Store.Touches` is all that one call does, and `PrefixCall.leaves_or_touches`
  says so.
* `prefixes_agree_iff` says for which runs of calls all connections agree with
  their grammars throughout.
-/

namespace FluentSql

/-! ## Calls -/

/-- A call that makes a grammar, a connection or a query, or sets the grammar or the prefix of a
connection. -/
inductive PrefixCall where
  /-- Makes a grammar. -/
  | newGrammar (grammar : Grammar)
  /-- Opens a connection with a grammar of its own. -/
  | connect (options : ConnectionOptions)
  /-- Opens a connection that uses a grammar. -/
  | openWith (options : ConnectionOptions) (grammar : GrammarId)
  /-- Makes a connection use a grammar. -/
  | useGrammar (c : ConnectionId) (grammar : GrammarId)
  /-- Makes a connection use a new grammar of the common core. -/
  | useDefaultGrammar (c : ConnectionId)
  /-- Sets the prefix of a connection. -/
  | setTablePrefix (c : ConnectionId) (tablePrefix : Value)
  /-- Starts a query. -/
  | startQuery (c : ConnectionId)

/-- Makes the call. -/
def PrefixCall.perform (run : Runner) : PrefixCall → Action Unit
  | newGrammar grammar => discard grammar.create
  | connect options => discard options.connect
  | openWith options grammar => discard (options.openWith grammar)
  | useGrammar c grammar => c.useGrammar run (.grammar grammar)
  | useDefaultGrammar c => c.useDefaultGrammar
  | setTablePrefix c tablePrefix => c.setTablePrefix run tablePrefix
  | startQuery c => discard c.query

/-- Whether a connection is in a store. -/
def Store.HasConnection (s : Store) (c : ConnectionId) : Prop :=
  c.index < s.connections.size

/-- Whether a grammar is in a store. -/
def Store.HasGrammar (s : Store) (g : GrammarId) : Prop :=
  g.index < s.grammars.size

instance (s : Store) (c : ConnectionId) : Decidable (s.HasConnection c) :=
  inferInstanceAs (Decidable (_ < _))

instance (s : Store) (g : GrammarId) : Decidable (s.HasGrammar g) :=
  inferInstanceAs (Decidable (_ < _))

/-- The objects that a call names are there. -/
def PrefixCall.InRange (s : Store) : PrefixCall → Prop
  | newGrammar _ | connect _ => True
  | openWith _ grammar => s.HasGrammar grammar
  | useGrammar c grammar => s.HasConnection c ∧ s.HasGrammar grammar
  | useDefaultGrammar c | setTablePrefix c _ | startQuery c => s.HasConnection c

namespace Store

/-- One call leads from a store to another. -/
def PrefixStep (run : Runner) (s s' : Store) : Prop :=
  ∃ call : PrefixCall, call.InRange s ∧ (call.perform run).runOn s = (.ok (), s')

/-! ## Prefixes -/

/-- A connection of the store uses a grammar of the store. -/
structure Uses (s : Store) (c : ConnectionId) (g : GrammarId) : Prop where
  /-- The connection is there. -/
  connection : s.HasConnection c
  /-- The grammar is there. -/
  grammar : s.HasGrammar g
  /-- It is the one of the connection. -/
  same : (s.connection c).grammar = .grammar g

/-- A connection has the prefix of its grammar. -/
def Agrees (s : Store) (c : ConnectionId) : Prop :=
  ∃ g, s.Uses c g ∧ (s.grammar g).tablePrefix = (s.connection c).tablePrefix

/-- Every connection has the prefix of its grammar. -/
def AllAgree (s : Store) : Prop :=
  ∀ c, s.HasConnection c → s.Agrees c

/-- Connections that share a grammar have one prefix. -/
def SharedAlike (s : Store) : Prop :=
  ∀ c d g, s.Uses c g → s.Uses d g →
    (s.connection c).tablePrefix = (s.connection d).tablePrefix

/-- What compiles a query with the grammar of its connection has the prefix of the connection. -/
def CompilesOwn (s : Store) : Prop :=
  ∀ q c g method, s.HasConnection c → (s.query q).connection = some c →
    (s.query q).grammar = (s.connection c).grammar →
    s.grammarFor (s.query q).grammar method = .ok g →
    g.tablePrefix = (s.connection c).tablePrefix

variable {s s' : Store} {c d : ConnectionId} {g h : GrammarId}

theorem Uses.unique (hg : s.Uses c g) (hh : s.Uses c h) : g = h :=
  Compiler.grammar.inj (hg.same.symm.trans hh.same)

theorem Agrees.prefix_eq (hc : s.Agrees c) (hg : s.Uses c g) :
    (s.grammar g).tablePrefix = (s.connection c).tablePrefix := by
  obtain ⟨h, hh, hprefix⟩ := hc
  rw [hg.unique hh, hprefix]

theorem AllAgree.sharedAlike (hs : s.AllAgree) : s.SharedAlike := by
  intro c d g hc hd
  rw [← (hs c hc.connection).prefix_eq hc, (hs d hd.connection).prefix_eq hd]

/-- Connections of one prefix can share what they like. -/
theorem sharedAlike_of_prefix {p : Value}
    (h : ∀ c, s.HasConnection c → (s.connection c).tablePrefix = p) : s.SharedAlike :=
  fun c d _ hc hd => (h c hc.connection).trans (h d hd.connection).symm

theorem AllAgree.compilesOwn (hs : s.AllAgree) : s.CompilesOwn := by
  intro q c g method hc _ hgrammar hfor
  obtain ⟨h, huses, hprefix⟩ := hs c hc
  rw [hgrammar, huses.same, grammarFor] at hfor
  split at hfor
  · cases hfor
  · cases hfor
    exact hprefix

/-! ## Changing grammars and connections -/

/-- A store with one more grammar. -/
def addGrammar (s : Store) (grammar : Grammar) : Store :=
  { s with grammars := s.grammars.push grammar }

/-- A store with one more connection. -/
def addConnection (s : Store) (connection : Connection) : Store :=
  { s with connections := s.connections.push connection }

/-- A store one of whose grammars is told a prefix. -/
def tellGrammar (s : Store) (g : GrammarId) (tablePrefix : Value) : Store :=
  { s with grammars := s.grammars.modify g.index fun x => { x with tablePrefix } }

/-- A store with another connection in place of one. -/
def editConnection (s : Store) (c : ConnectionId) (f : Connection → Connection) : Store :=
  { s with connections := s.connections.modify c.index f }

theorem grammar_addGrammar_self (x : Grammar) :
    (s.addGrammar x).grammar ⟨s.grammars.size⟩ = x := by
  simp [grammar, addGrammar]

theorem grammar_addGrammar (x : Grammar) (hg : s.HasGrammar g) :
    (s.addGrammar x).grammar g = s.grammar g := by
  unfold HasGrammar at hg
  simp [grammar, addGrammar, Array.getElem?_push, hg, hg.ne]

theorem grammar_tellGrammar_self (p : Value) (hg : s.HasGrammar g) :
    ((s.tellGrammar g p).grammar g).tablePrefix = p := by
  unfold HasGrammar at hg
  simp [grammar, tellGrammar, hg, Array.getElem_modify_self]

theorem grammar_tellGrammar_of_ne (p : Value) (hne : h ≠ g) :
    (s.tellGrammar g p).grammar h = s.grammar h := by
  have hindex : g.index ≠ h.index := fun heq => hne (by cases g; cases h; cases heq; rfl)
  simp [grammar, tellGrammar, Array.getElem?_modify, hindex]

theorem connection_addConnection_self (x : Connection) :
    (s.addConnection x).connection ⟨s.connections.size⟩ = x := by
  simp [connection, addConnection]

theorem connection_addConnection (x : Connection) (hc : s.HasConnection c) :
    (s.addConnection x).connection c = s.connection c := by
  unfold HasConnection at hc
  simp [connection, addConnection, Array.getElem?_push, hc, hc.ne]

theorem connection_editConnection_self (f : Connection → Connection) (hc : s.HasConnection c) :
    (s.editConnection c f).connection c = f (s.connection c) := by
  unfold HasConnection at hc
  simp [connection, editConnection, hc, Array.getElem_modify_self]

theorem connection_editConnection_of_ne (f : Connection → Connection) (hne : d ≠ c) :
    (s.editConnection c f).connection d = s.connection d := by
  have hindex : c.index ≠ d.index := fun heq => hne (by cases c; cases d; cases heq; rfl)
  simp [connection, editConnection, Array.getElem?_modify, hindex]

/-! ## What one call does -/

/-- A grammar has a prefix, and nothing else was done to the connections and to the grammars that
were there. -/
structure Tells (g : GrammarId) (tablePrefix : Value) (s s' : Store) : Prop where
  /-- The grammar is there. -/
  exist : s'.HasGrammar g
  /-- It has the prefix. -/
  told : (s'.grammar g).tablePrefix = tablePrefix
  /-- The other grammars are the same. -/
  grammars : ∀ h, h ≠ g → s.HasGrammar h → s'.HasGrammar h ∧ s'.grammar h = s.grammar h
  /-- The connections are the same. -/
  connections : s'.connections = s.connections

/-- A connection uses a grammar and has its prefix, and nothing else was done to the connections and
to the grammars that were there. -/
structure Touches (c : ConnectionId) (g : GrammarId) (s s' : Store) : Prop where
  /-- The connection uses the grammar. -/
  uses : s'.Uses c g
  /-- It has its prefix. -/
  told : (s'.grammar g).tablePrefix = (s'.connection c).tablePrefix
  /-- The other grammars are the same. -/
  grammars : ∀ h, h ≠ g → s.HasGrammar h → s'.HasGrammar h ∧ s'.grammar h = s.grammar h
  /-- The other connections were there and are the same. -/
  connections : ∀ d, d ≠ c → s'.HasConnection d →
    s.HasConnection d ∧ s'.connection d = s.connection d

theorem hasGrammar_addGrammar (x : Grammar) (hg : s.HasGrammar g) :
    (s.addGrammar x).HasGrammar g := by
  unfold HasGrammar addGrammar at *
  rw [Array.size_push]
  exact Nat.lt_succ_of_lt hg

theorem hasGrammar_tellGrammar (p : Value) : (s.tellGrammar g p).HasGrammar h ↔ s.HasGrammar h := by
  unfold HasGrammar tellGrammar
  rw [Array.size_modify]

theorem tells_addGrammar {x : Grammar} :
    Tells ⟨s.grammars.size⟩ x.tablePrefix s (s.addGrammar x) where
  exist := by
    unfold HasGrammar addGrammar
    rw [Array.size_push]
    exact Nat.lt_succ_self _
  told := by rw [grammar_addGrammar_self]
  grammars _ _ hh := ⟨hasGrammar_addGrammar x hh, grammar_addGrammar x hh⟩
  connections := rfl

theorem tells_tellGrammar (p : Value) (hg : s.HasGrammar g) : Tells g p s (s.tellGrammar g p) where
  exist := (hasGrammar_tellGrammar p).2 hg
  told := grammar_tellGrammar_self p hg
  grammars _ hne hh := ⟨(hasGrammar_tellGrammar p).2 hh, grammar_tellGrammar_of_ne p hne⟩
  connections := rfl

/-- A grammar is told another prefix in place of the first. -/
theorem Tells.tellGrammar {p : Value} (ht : Tells g p s s') (p' : Value) :
    Tells g p' s (s'.tellGrammar g p') where
  exist := (hasGrammar_tellGrammar p').2 ht.exist
  told := grammar_tellGrammar_self p' ht.exist
  grammars h hne hh := by
    obtain ⟨hhas, heq⟩ := ht.grammars h hne hh
    exact ⟨(hasGrammar_tellGrammar p').2 hhas, (grammar_tellGrammar_of_ne p' hne).trans heq⟩
  connections := ht.connections

/-- A connection that is opened after its grammar was told its prefix. -/
theorem Tells.addConnection {x : Connection} (ht : Tells g x.tablePrefix s s')
    (hx : x.grammar = .grammar g) :
    Touches ⟨s.connections.size⟩ g s (s'.addConnection x) := by
  have hself : (s'.addConnection x).connection ⟨s.connections.size⟩ = x := by
    rw [← ht.connections, connection_addConnection_self]
  have hnew : (s'.addConnection x).HasConnection ⟨s.connections.size⟩ := by
    unfold HasConnection Store.addConnection
    rw [Array.size_push, ht.connections]
    exact Nat.lt_succ_self _
  exact {
    uses := ⟨hnew, ht.exist, by rw [hself, hx]⟩
    told := by rw [hself]; exact ht.told
    grammars := ht.grammars
    connections := fun d hne hd => by
      have hold : s.HasConnection d := by
        have hindex : d.index ≠ s.connections.size := fun heq => hne (by cases d; cases heq; rfl)
        unfold HasConnection Store.addConnection at *
        rw [Array.size_push, ht.connections] at hd
        omega
      refine ⟨hold, ?_⟩
      have hthere : s'.HasConnection d := by
        unfold HasConnection at *
        rwa [ht.connections]
      rw [connection_addConnection x hthere]
      unfold connection
      rw [ht.connections] }

/-- A connection that is changed after its grammar was told its prefix. -/
theorem Tells.editConnection {f : Connection → Connection}
    (ht : Tells g (f (s.connection c)).tablePrefix s s') (hc : s.HasConnection c)
    (hf : (f (s.connection c)).grammar = .grammar g) : Touches c g s (s'.editConnection c f) := by
  have hsame : ∀ d, s'.connection d = s.connection d := by
    intro d
    unfold connection
    rw [ht.connections]
  have hthere : s'.HasConnection c := by
    unfold HasConnection at *
    rwa [ht.connections]
  have hself : (s'.editConnection c f).connection c = f (s.connection c) := by
    rw [connection_editConnection_self f hthere, hsame]
  have hstays : (s'.editConnection c f).HasConnection c := by
    unfold HasConnection Store.editConnection at *
    rwa [Array.size_modify]
  exact {
    uses := ⟨hstays, ht.exist, by rw [hself, hf]⟩
    told := by rw [hself]; exact ht.told
    grammars := ht.grammars
    connections := fun d hne hd => by
      unfold HasConnection Store.editConnection at hd
      rw [Array.size_modify, ht.connections] at hd
      exact ⟨hd, (connection_editConnection_of_ne f hne).trans (hsame d)⟩ }

/-- Nothing was done to the connections and to the grammars that were there. -/
structure Leaves (s s' : Store) : Prop where
  /-- The connections are the same. -/
  connections : s'.connections = s.connections
  /-- The grammars are the same. -/
  grammars : ∀ h, s.HasGrammar h → s'.HasGrammar h ∧ s'.grammar h = s.grammar h

/-- Every connection uses a grammar of the store. -/
def AllUse (s : Store) : Prop :=
  ∀ c, s.HasConnection c → ∃ g, s.Uses c g

/-- All that a call can do: it leaves the connections and their grammars as they are, or it touches
one connection and its grammar.  It does not fail. -/
theorem leaves_or_touches (run : Runner) {call : PrefixCall} (hcall : call.InRange s)
    (hs : s.AllUse) :
    ∃ s', (call.perform run).runOn s = (.ok (), s') ∧
      (Leaves s s' ∨ ∃ c g, Touches c g s s') := by
  cases call with
  | newGrammar x =>
    exact ⟨s.addGrammar x, rfl, .inl ⟨rfl, fun h hh =>
      ⟨hasGrammar_addGrammar x hh, grammar_addGrammar x hh⟩⟩⟩
  | connect options =>
    exact ⟨_, rfl, .inr ⟨_, _,
      (tells_addGrammar.tellGrammar options.tablePrefix).addConnection rfl⟩⟩
  | openWith options g =>
    exact ⟨_, rfl, .inr ⟨_, _, (tells_tellGrammar options.tablePrefix hcall).addConnection rfl⟩⟩
  | useGrammar c g =>
    obtain ⟨hc, hg⟩ := hcall
    have htold := tells_tellGrammar (s.connection c).tablePrefix hg
    exact ⟨_, rfl, .inr ⟨c, g, htold.editConnection hc rfl⟩⟩
  | useDefaultGrammar c =>
    have htold := tells_addGrammar (s := s) (x := {
      dialect := .ansi, tablePrefix := (s.connection c).tablePrefix })
    exact ⟨_, rfl, .inr ⟨c, _, htold.editConnection hcall rfl⟩⟩
  | setTablePrefix c p =>
    -- The grammar is the one of the connection as it was before.
    obtain ⟨g, _, hhas, hg⟩ := hs c hcall
    have hself : ((s.editConnection c fun x => { x with tablePrefix := p }).connection c).grammar =
        .grammar g := by
      rw [connection_editConnection_self _ hcall, hg]
    refine ⟨(s.tellGrammar g p).editConnection c fun x => { x with tablePrefix := p }, ?_,
      .inr ⟨c, g, (tells_tellGrammar p hhas).editConnection hcall hg⟩⟩
    have hnext : (PrefixCall.perform run (.setTablePrefix c p)).runOn s =
        (((s.editConnection c fun x => { x with tablePrefix := p }).connection c).grammar
          |>.setTablePrefixWithin run p s.connections.size).runOn
          (s.editConnection c fun x => { x with tablePrefix := p }) := rfl
    rw [hnext, hself]
    cases s.connections.size <;> rfl
  | startQuery c => exact ⟨_, rfl, .inl ⟨rfl, fun h hh => ⟨hh, rfl⟩⟩⟩

theorem PrefixStep.leaves_or_touches {run : Runner} (h : PrefixStep run s s') (hs : s.AllUse) :
    Leaves s s' ∨ ∃ c g, Touches c g s s' := by
  obtain ⟨call, hcall, hrun⟩ := h
  obtain ⟨t, ht, hdone⟩ := Store.leaves_or_touches run hcall hs
  cases hrun.symm.trans ht
  exact hdone

/-! ## What a run of calls does -/

/-- A connection that is the same still uses its grammar. -/
theorem Uses.keeps (hd : s.Uses d h) (hhas : s'.HasConnection d)
    (hsame : s'.connection d = s.connection d) (hgrammar : s'.HasGrammar h) : s'.Uses d h :=
  ⟨hhas, hgrammar, by rw [hsame, hd.same]⟩

theorem Leaves.connection (hleaves : Leaves s s') (d : ConnectionId) :
    s'.connection d = s.connection d := by
  unfold Store.connection
  rw [hleaves.connections]

theorem Leaves.hasConnection (hleaves : Leaves s s') :
    s'.HasConnection d ↔ s.HasConnection d := by
  unfold HasConnection
  rw [hleaves.connections]

theorem PrefixStep.allUse {run : Runner} (hstep : PrefixStep run s s') (hs : s.AllUse) :
    s'.AllUse := by
  intro d hd
  obtain hleaves | ⟨c, g, htouches⟩ := hstep.leaves_or_touches hs
  · obtain ⟨h, hh⟩ := hs d (hleaves.hasConnection.1 hd)
    exact ⟨h, hh.keeps hd (hleaves.connection d) (hleaves.grammars h hh.grammar).1⟩
  · by_cases hdc : d = c
    · exact ⟨g, hdc ▸ htouches.uses⟩
    · obtain ⟨hold, hsame⟩ := htouches.connections d hdc hd
      obtain ⟨h, hh⟩ := hs d hold
      by_cases hhg : h = g
      · exact ⟨h, hh.keeps hd hsame (hhg ▸ htouches.uses.grammar)⟩
      · exact ⟨h, hh.keeps hd hsame (htouches.grammars h hhg hh.grammar).1⟩

theorem AllAgree.allUse (hs : s.AllAgree) : s.AllUse := by
  intro c hc
  obtain ⟨g, hg, _⟩ := hs c hc
  exact ⟨g, hg⟩

/-- A call keeps connections and grammars together if the connection that it touches has the prefix
of those that share its grammar. -/
theorem PrefixStep.allAgree {run : Runner} (hstep : PrefixStep run s s') (hs : s.AllAgree)
    (hshared : s'.SharedAlike) : s'.AllAgree := by
  intro d hd
  obtain hleaves | ⟨c, g, htouches⟩ := hstep.leaves_or_touches hs.allUse
  · obtain ⟨h, hh, hprefix⟩ := hs d (hleaves.hasConnection.1 hd)
    obtain ⟨hhas, hsame⟩ := hleaves.grammars h hh.grammar
    exact ⟨h, hh.keeps hd (hleaves.connection d) hhas, by rw [hsame, hleaves.connection, hprefix]⟩
  · by_cases hdc : d = c
    · exact ⟨g, hdc ▸ htouches.uses, hdc ▸ htouches.told⟩
    · obtain ⟨hold, hsame⟩ := htouches.connections d hdc hd
      obtain ⟨h, hh, hprefix⟩ := hs d hold
      by_cases hhg : h = g
      · -- The grammar was told the prefix of the other connection.
        subst hhg
        have huses : s'.Uses d h := hh.keeps hd hsame htouches.uses.grammar
        exact ⟨h, huses, htouches.told.trans (hshared c d h htouches.uses huses)⟩
      · obtain ⟨hhas, heq⟩ := htouches.grammars h hhg hh.grammar
        exact ⟨h, hh.keeps hd hsame hhas, by rw [heq, hsame, hprefix]⟩

/-- No call of a run fails. -/
theorem allUse_of_isChain {run : Runner} {states : List Store} (hs : s.AllUse)
    (hrun : (s :: states).IsChain (PrefixStep run)) : ∀ t ∈ s :: states, t.AllUse := by
  induction states generalizing s with
  | nil => simpa using hs
  | cons s' states ih =>
    obtain ⟨hstep, hrest⟩ := List.isChain_cons_cons.1 hrun
    exact List.forall_mem_cons.2 ⟨hs, ih (hstep.allUse hs) hrest⟩

theorem allAgree_of_isChain {run : Runner} {states : List Store} (hs : s.AllAgree)
    (hrun : (s :: states).IsChain (PrefixStep run)) (hshared : ∀ t ∈ states, t.SharedAlike) :
    ∀ t ∈ s :: states, t.AllAgree := by
  induction states generalizing s with
  | nil => simpa using hs
  | cons s' states ih =>
    obtain ⟨hstep, hrest⟩ := List.isChain_cons_cons.1 hrun
    obtain ⟨hnext, hlater⟩ := List.forall_mem_cons.1 hshared
    exact List.forall_mem_cons.2 ⟨hs, ih (hstep.allAgree hs hnext) hrest hlater⟩

/-- Along a run of calls no call fails, and every connection has the prefix of its grammar, with
which its queries are compiled, exactly as long as connections that share a grammar have one
prefix. -/
theorem prefixes_agree_iff (run : Runner) {states : List Store} (hs : s.AllAgree)
    (hrun : (s :: states).IsChain (PrefixStep run)) :
    ((∀ t ∈ s :: states, t.AllAgree ∧ t.CompilesOwn) ↔ ∀ t ∈ s :: states, t.SharedAlike) ∧
      ∀ t ∈ s :: states, ∀ call : PrefixCall, call.InRange t →
        ∃ t', (call.perform run).runOn t = (.ok (), t') := by
  refine ⟨⟨fun hagree t ht => (hagree t ht).1.sharedAlike, fun hshared t ht => ?_⟩, ?_⟩
  · have hagree := allAgree_of_isChain hs hrun
      (fun u hu => hshared u (List.mem_cons_of_mem _ hu)) t ht
    exact ⟨hagree, hagree.compilesOwn⟩
  · intro t ht call hcall
    obtain ⟨t', hdone, _⟩ := leaves_or_touches run hcall (allUse_of_isChain hs.allUse hrun t ht)
    exact ⟨t', hdone⟩

/-- The store after a call. -/
def after (s : Store) (call : PrefixCall) : Store :=
  ((call.perform Runner.idle).runOn s).2

/-- A store in which two connections of one prefix share a grammar. -/
def withTwo : Store :=
  ((ofTable "users").after (.openWith { tablePrefix := .text "a_" } ⟨0⟩)).after
    (.openWith { tablePrefix := .text "a_" } ⟨0⟩)

/-- Two connections of one prefix agree with the grammar that they share. -/
theorem prefixes_agree_iff_two : withTwo.AllAgree ∧ withTwo.CompilesOwn := by
  have hstep : ∀ s : Store, s.HasGrammar ⟨0⟩ → PrefixStep Runner.idle s
      (s.after (.openWith { tablePrefix := .text "a_" } ⟨0⟩)) :=
    fun s h => ⟨.openWith _ _, h, rfl⟩
  have hrun : [ofTable "users",
      (ofTable "users").after (.openWith { tablePrefix := .text "a_" } ⟨0⟩), withTwo].IsChain
        (PrefixStep Runner.idle) :=
    .cons_cons (hstep _ (by decide)) (.cons_cons (hstep _ (by decide)) (.singleton _))
  have hnone : (ofTable "users").AllAgree := fun c hc => absurd hc (Nat.not_lt_zero _)
  have hone : ((ofTable "users").after
      (.openWith { tablePrefix := .text "a_" } ⟨0⟩)).SharedAlike := by
    refine sharedAlike_of_prefix (p := .text "a_") ?_
    rintro ⟨_ | n⟩ hc
    · rfl
    · exact absurd (Nat.lt_of_succ_lt_succ hc) (Nat.not_lt_zero n)
  have htwo : withTwo.SharedAlike := by
    refine sharedAlike_of_prefix (p := .text "a_") ?_
    rintro ⟨_ | _ | n⟩ hc
    · rfl
    · rfl
    · exact absurd (Nat.lt_of_succ_lt_succ (Nat.lt_of_succ_lt_succ hc)) (Nat.not_lt_zero n)
  refine ((prefixes_agree_iff Runner.idle hnone hrun).1.2 ?_) _ (by simp)
  simpa using ⟨hnone.sharedAlike, hone, htwo⟩

/-- A store in which the second of two connections with prefixes of their own took over the grammar
of the first. -/
def withBorrowed : Store :=
  (((ofTable "users").after (.connect { tablePrefix := .text "a_" })).after
    (.connect { tablePrefix := .text "b_" })).after (.useGrammar ⟨1⟩ ⟨1⟩)

/-- The first connection keeps its prefix, but its grammar writes tables with the other one. -/
theorem withBorrowed_disagrees : withBorrowed.Uses ⟨0⟩ ⟨1⟩ ∧ ¬withBorrowed.Agrees ⟨0⟩ ∧
    (withBorrowed.connection ⟨0⟩).tablePrefix = .text "a_" ∧
    (withBorrowed.grammar ⟨1⟩).wrappedTable (.text "users") = .ok "\"b_users\"" := by
  have huses : withBorrowed.Uses ⟨0⟩ ⟨1⟩ := ⟨by decide, by decide, rfl⟩
  have hconnection : (withBorrowed.connection ⟨0⟩).tablePrefix = .text "a_" := rfl
  have hgrammar : (withBorrowed.grammar ⟨1⟩).tablePrefix = .text "b_" := rfl
  refine ⟨huses, fun h => ?_, hconnection, rfl⟩
  have heq := h.prefix_eq huses
  rw [hconnection, hgrammar] at heq
  exact absurd (Value.text.inj heq) (by decide)

end Store

end FluentSql
