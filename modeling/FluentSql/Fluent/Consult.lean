import FluentSql.Compile.Select
import FluentSql.Extension
import FluentSql.Store.Live

/-!
# Compiling with extensions

A query may stand where another kind of value is due, and compiling then asks
it for something that only an extension can answer.  Compiling itself runs
nothing: it stops at the first such request.  The extension is called and
compiling starts anew, with the answer known and with what the extension did
to the store.

* `consult` repeats a compilation until no request is left.
* `QueryId.compile` compiles a query in this way, and `QueryId.toSql` does so as
  a select statement.
-/

namespace FluentSql

/-- The number of requests after which compiling is given up. -/
def requestLimit : Nat := 1000

/-- Repeats a compilation with the answers that are known so far.  `fuel` bounds the number of
requests. -/
def consultFrom {α : Type} (run : Runner) (compile : Store → KnownAnswers → Except Failure α) :
    (fuel : Nat) → KnownAnswers → Action α
  | 0, _ => throw (.value .endless)
  | fuel + 1, known => do
    match compile (← get) known with
    | .error (.unanswered q request) => do
      let answer ← (← Extensions.call run q request.name request.arguments).shown
      consultFrom run compile fuel (((q, request), answer) :: known)
    | result => Action.ofExcept result

/-- Repeats a compilation until every request that it makes is answered. -/
def consult {α : Type} (run : Runner) (compile : Store → KnownAnswers → Except Failure α) :
    Action α :=
  consultFrom run compile requestLimit []

namespace QueryId

/-- Compiles a query by its own grammar, which must have a method for it. -/
def compile {α : Type} (run : Runner) (q : QueryId) (method : String)
    (f : Grammar → Attached → Query → Except Failure α) : Action α :=
  consult run fun s known => s.settled.compiled known q method f

/-- The query as a select statement. -/
def toSql (run : Runner) (q : QueryId) : Action String :=
  q.compile run "compile_select" Grammar.selectSql

end QueryId

end FluentSql
