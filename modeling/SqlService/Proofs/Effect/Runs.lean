import Mathlib.Data.List.Forall2
import SqlService.Effect.Program

/-!
# Runs of programs

What a program may go through is read off its constructors: a result makes no request, a request is
followed by what its reply leads to, an attempt stops at its first failure.  Requests are sorted by
what they do to a connection: they use it, settle its transaction or close it.

Main statements: every program has a run (`exists_runs`), and for a program that is indifferent to
the replies of some requests, these may be altered (`Indifferent.runs_altered`) and all others
decide what it does (`Indifferent.runs_unique`).
-/

namespace SqlService

/-! ## §1 What a request does -/

namespace Request

/-- The logical name of the connection that a request concerns. -/
def name? : Request → Option String
  | connect name _ => some name
  | begin l => some l.name
  | commit l => some l.name
  | rollback l => some l.name
  | close l => some l.name
  | execute l _ _ => some l.name
  | scalar l _ _ => some l.name
  | query l _ _ => some l.name
  | script l _ => some l.name
  | _ => none

/-- The connection that a statement runs on. -/
def statement? : Request → Option Link
  | execute l _ _ => some l
  | scalar l _ _ => some l
  | query l _ _ => some l
  | script l _ => some l
  | _ => none

/-- The connection that a request works on, with a statement or by opening a transaction. -/
def uses? : Request → Option Link
  | begin l => some l
  | q => q.statement?

/-- The connection whose transaction a request commits or rolls back. -/
def settles? : Request → Option Link
  | commit l => some l
  | rollback l => some l
  | _ => none

/-- The connection that a request closes. -/
def closes? : Request → Option Link
  | close l => some l
  | _ => none

/-- Whether a request ends a transaction or a connection. -/
def finishes (q : Request) : Bool := q.settles?.isSome || q.closes?.isSome

/-- A statement concerns its connection. -/
theorem name?_of_statement? {q : Request} {l : Link} (h : q.statement? = some l) :
    q.name? = some l.name := by
  cases q <;> simp_all [statement?, name?]

/-- A statement uses its connection. -/
theorem uses?_of_statement? {q : Request} {l : Link} (h : q.statement? = some l) :
    q.uses? = some l := by
  cases q <;> simp_all [statement?, uses?]

/-- What uses a connection concerns it. -/
theorem name?_of_uses? {q : Request} {l : Link} (h : q.uses? = some l) :
    q.name? = some l.name := by
  cases q <;> simp_all [statement?, uses?, name?]

/-- A statement ends nothing. -/
theorem finishes_of_statement? {q : Request} {l : Link} (h : q.statement? = some l) :
    q.finishes = false := by
  cases q <;> simp_all [statement?, finishes, settles?, closes?]

/-- What concerns no connection uses none. -/
theorem uses?_of_name?_eq_none {q : Request} (h : q.name? = none) : q.uses? = none := by
  cases huse : q.uses? with
  | none => rfl
  | some l => simp [name?_of_uses? huse] at h

/-- What concerns no connection ends none. -/
theorem finishes_of_name?_eq_none {q : Request} (h : q.name? = none) : q.finishes = false := by
  cases q <;> simp_all [name?, finishes, settles?, closes?]

/-- A request ends nothing if it neither settles nor closes. -/
theorem finishes_eq_false_iff {q : Request} :
    q.finishes = false ↔ q.settles? = none ∧ q.closes? = none := by
  simp [finishes]

/-- Every request can be replied to. -/
theorem nonempty_reply (q : Request) : Nonempty q.Reply := by
  cases q
  -- The plain replies have values of their own; any other request may always fail.
  case isCancelled => exact ⟨false⟩
  case cancel => exact ⟨()⟩
  case observe => exact ⟨(0 : Nat)⟩
  case remembered => exact ⟨(none : Option String)⟩
  case remember => exact ⟨()⟩
  all_goals exact ⟨.error (.database "")⟩

end Request

namespace Program

variable {α β ε : Type}

/-! ## §2 Runs -/

/-- A result is a run without events. -/
theorem runs_done_iff {a b : α} {events : List Event} :
    Runs (.done a) events b ↔ events = [] ∧ b = a := by
  constructor
  · intro h
    cases h
    exact ⟨rfl, rfl⟩
  · rintro ⟨rfl, rfl⟩
    exact .done b

/-- The same of a pair, part by part. -/
theorem runs_done_pair_iff {a a' : α} {b b' : β} {events : List Event} :
    Runs (.done (a, b)) events (a', b') ↔ events = [] ∧ a' = a ∧ b' = b := by
  rw [runs_done_iff, Prod.mk.injEq]

/-- A run of a request is its reply and a run of what the reply leads to. -/
theorem runs_ask_iff {q : Request} {next : q.Reply → Program α} {events : List Event} {a : α} :
    Runs (.ask q next) events a ↔ ∃ r rest, events = ⟨q, r⟩ :: rest ∧ Runs (next r) rest a := by
  constructor
  · intro h
    cases h with
    | ask _ _ r rest _ h => exact ⟨r, rest, rfl, h⟩
  · rintro ⟨r, rest, rfl, h⟩
    exact .ask q next r rest a h

/-- A request by itself is one event. -/
theorem runs_request_iff {q : Request} {events : List Event} {r : q.Reply} :
    Runs (request q) events r ↔ events = [⟨q, r⟩] := by
  constructor
  · intro h
    obtain ⟨r', rest, rfl, hr⟩ := runs_ask_iff.mp h
    obtain ⟨rfl, rfl⟩ := runs_done_iff.mp hr
    rfl
  · rintro rfl
    exact .ask q .done r [] r (.done r)

/-- Whatever a program asks, it comes to an end under some replies. -/
theorem exists_runs (p : Program α) : ∃ events a, Runs p events a := by
  induction p with
  | done a => exact ⟨[], a, .done a⟩
  | ask q next ih =>
    obtain ⟨r⟩ := q.nonempty_reply
    obtain ⟨events, a, h⟩ := ih r
    exact ⟨⟨q, r⟩ :: events, a, .ask q next r events a h⟩

/-- The requests and replies that a program goes through in a world. -/
def transcript {World : Type} (respond : World → (q : Request) → q.Reply × World) :
    Program α → World → List Event
  | done _, _ => []
  | ask q next, w =>
    ⟨q, (respond w q).1⟩ :: transcript respond (next (respond w q).1) (respond w q).2

/-- What happens in a world is a run. -/
theorem runs_transcript {World : Type} (respond : World → (q : Request) → q.Reply × World)
    (p : Program α) (w : World) : Runs p (p.transcript respond w) (p.run respond w).1 := by
  induction p generalizing w with
  | done a => exact .done a
  | ask q next ih => exact .ask q next _ _ _ (ih _ _)

/-- The world that answers each request in the same way whenever it is made. -/
def answering (answer : (q : Request) → q.Reply) : Unit → (q : Request) → q.Reply × Unit :=
  fun w q => (answer q, w)

/-- The replies of the events are those of the world on its way from one state to another. -/
def Replied {World : Type} (respond : World → (q : Request) → q.Reply × World) :
    World → List Event → World → Prop
  | w, [], w' => w' = w
  | w, e :: events, w' =>
    e.reply = (respond w e.request).1 ∧ Replied respond (respond w e.request).2 events w'

/-- A run with the replies of a world is what happens there. -/
theorem Runs.of_replied {World : Type} {respond : World → (q : Request) → q.Reply × World}
    {p : Program α} {events : List Event} {a : α} {w w' : World} (h : Runs p events a)
    (hreplied : Replied respond w events w') :
    p.run respond w = (a, w') ∧ p.transcript respond w = events := by
  induction h generalizing w with
  | done a =>
    obtain rfl : w' = w := hreplied
    exact ⟨rfl, rfl⟩
  | ask q next r events a _ ih =>
    obtain ⟨hreply, hrest⟩ := hreplied
    obtain rfl : r = (respond w q).1 := hreply
    obtain ⟨hrun, htranscript⟩ := ih hrest
    exact ⟨hrun, congrArg _ htranscript⟩

/-! ## §3 Attempts -/

/-- An attempt that is a value asks for nothing. -/
theorem runs_attempt_pure_iff {a : α} {events : List Event} {r : Except ε α} :
    Runs (pure a : Attempt ε α).run events r ↔ events = [] ∧ r = .ok a :=
  runs_done_iff

/-- An attempt followed by another fails with the first, or goes on with its value. -/
theorem runs_attempt_bind_iff {t : Attempt ε α} {f : α → Attempt ε β} {events : List Event}
    {r : Except ε β} :
    Runs (t >>= f).run events r ↔
      (∃ first second a, events = first ++ second ∧ Runs t.run first (.ok a) ∧
        Runs (f a).run second r) ∨
      ∃ e, Runs t.run events (.error e) ∧ r = .error e := by
  show Runs (Program.andThen t.run (ExceptT.bindCont f)) events r ↔ _
  rw [runs_andThen]
  constructor
  -- What the first attempt ends with decides which of the two it is.
  · rintro ⟨first, second, x, rfl, h1, h2⟩
    cases x with
    | ok a => exact .inl ⟨first, second, a, rfl, h1, h2⟩
    | error e =>
      obtain ⟨rfl, rfl⟩ := runs_done_iff.mp h2
      rw [List.append_nil]
      exact .inr ⟨e, h1, rfl⟩
  · rintro (⟨first, second, a, rfl, h1, h2⟩ | ⟨e, h1, rfl⟩)
    · exact ⟨first, second, .ok a, rfl, h1, h2⟩
    · exact ⟨events, [], .error e, by simp, h1, .done _⟩

/-! ## §4 Kinds of requests -/

/-- Every request that the program may make is of the kind. -/
def Only (kind : Request → Prop) (p : Program α) : Prop :=
  ∀ events a, Runs p events a → ∀ e ∈ events, kind e.request

/-- A result makes no request of any kind. -/
theorem only_done (kind : Request → Prop) (a : α) : Only kind (.done a) := by
  intro events b h e he
  rw [(runs_done_iff.mp h).1] at he
  cases he

/-- One request is of its own kind. -/
theorem only_request {kind : Request → Prop} {q : Request} (h : kind q) :
    Only kind (request q) := by
  intro events r hr e he
  rw [runs_request_iff.mp hr, List.mem_singleton] at he
  rw [he]
  exact h

/-- What follows a program makes no further kind of request if neither does. -/
theorem Only.andThen {kind : Request → Prop} {p : Program α} {f : α → Program β}
    (hp : Only kind p) (hf : ∀ a, Only kind (f a)) : Only kind (p.andThen f) := by
  intro events b h e he
  obtain ⟨first, second, a, rfl, h1, h2⟩ := runs_andThen.mp h
  rcases List.mem_append.mp he with he | he
  · exact hp first a h1 e he
  · exact hf a second b h2 e he

/-- The first request is of the kind. -/
theorem Only.first {kind : Request → Prop} {q : Request} {next : q.Reply → Program α}
    (h : Only kind (.ask q next)) : kind q := by
  -- Some run makes the request, as every request can be replied to.
  obtain ⟨events, a, hr⟩ := exists_runs (ask q next)
  obtain ⟨r, rest, rfl, -⟩ := runs_ask_iff.mp hr
  exact h _ _ hr ⟨q, r⟩ List.mem_cons_self

/-- So are the requests that follow any reply. -/
theorem Only.next {kind : Request → Prop} {q : Request} {next : q.Reply → Program α}
    (h : Only kind (.ask q next)) (r : q.Reply) : Only kind (next r) :=
  fun events a hr e he => h _ _ (.ask q next r events a hr) e (List.mem_cons_of_mem _ he)

/-- An attempt after another makes no further kind of request if neither does. -/
theorem Only.bind {kind : Request → Prop} {t : Attempt ε α} {f : α → Attempt ε β}
    (ht : Only kind t.run) (hf : ∀ a, Only kind (f a).run) : Only kind (t >>= f).run := by
  apply Only.andThen (f := ExceptT.bindCont f) ht
  intro r
  cases r with
  | ok a => exact hf a
  | error e => exact only_done kind _

/-! ## §5 Replies that do not matter -/

/-- Whatever the replies to the requests of a kind are, the program goes on in the same way. -/
def Indifferent (kind : Request → Bool) : Program α → Prop
  | done _ => True
  | ask q next =>
    (∀ r, Indifferent kind (next r)) ∧ (kind q = true → ∀ r r', next r = next r')

/-- Indifference is kept by what follows. -/
theorem Indifferent.andThen {kind : Request → Bool} {p : Program α} {f : α → Program β}
    (hp : p.Indifferent kind) (hf : ∀ a, (f a).Indifferent kind) :
    (p.andThen f).Indifferent kind := by
  induction p with
  -- By induction on the first program, which decides when the second one starts.
  | done a => exact hf a
  | ask q next ih =>
    refine ⟨fun r => ih r (hp.1 r), fun hq r r' => ?_⟩
    show (next r).andThen f = (next r').andThen f
    rw [hp.2 hq r r']

/-- A program that makes no request of a kind is indifferent to the replies to them. -/
theorem Only.indifferent {kind : Request → Bool} {p : Program α}
    (h : Only (fun q => kind q = false) p) : p.Indifferent kind := by
  induction p with
  | done a => exact True.intro
  | ask q next ih =>
    -- No request is of the kind, so there is nothing to be indifferent to.
    refine ⟨fun r => ih r (h.next r), fun hq => ?_⟩
    have hkind := h.first
    rw [hq] at hkind
    cases hkind

/-- Two runs in which the same requests get the same replies, those of a kind apart to whose
replies the program is indifferent, make the same requests and end in the same result. -/
theorem Indifferent.runs_unique {kind : Request → Bool} {p : Program α}
    (hp : p.Indifferent kind) {events events' : List Event} {a a' : α}
    (h : Runs p events a) (h' : Runs p events' a')
    (hsame : ∀ (i : Nat) (q : Request) (r r' : q.Reply), events[i]? = some ⟨q, r⟩ →
      events'[i]? = some ⟨q, r'⟩ → kind q = false → r = r') :
    a' = a ∧ events'.map Event.request = events.map Event.request := by
  -- By induction on the program, along both runs at once.
  induction p generalizing events events' with
  | done b =>
    obtain ⟨rfl, rfl⟩ := runs_done_iff.mp h
    obtain ⟨rfl, rfl⟩ := runs_done_iff.mp h'
    exact ⟨rfl, rfl⟩
  | ask q next ih =>
    obtain ⟨r, rest, rfl, hr⟩ := runs_ask_iff.mp h
    obtain ⟨r', rest', rfl, hr'⟩ := runs_ask_iff.mp h'
    -- Either the replies agree, or what follows does not depend on them.
    have hnext : next r' = next r := by
      cases hq : kind q with
      | true => exact hp.2 hq r' r
      | false => rw [hsame 0 q r r' rfl rfl hq]
    rw [hnext] at hr'
    obtain ⟨ha, hrest⟩ := ih r (hp.1 r) hr hr' fun i => hsame (i + 1)
    exact ⟨ha, by simp [hrest]⟩

/-- The events make the same requests and differ at most in the replies to those of a kind. -/
def Altered (kind : Request → Bool) (events events' : List Event) : Prop :=
  List.Forall₂ (fun e e' => e'.request = e.request ∧ (kind e.request = false → e' = e))
    events events'

/-- A program runs to the same result when the replies that it is indifferent to are altered. -/
theorem Indifferent.runs_altered {kind : Request → Bool} {p : Program α}
    (hp : p.Indifferent kind) {events events' : List Event} {a : α} (h : Runs p events a)
    (haltered : Altered kind events events') : Runs p events' a := by
  induction p generalizing events events' with
  | done b =>
    obtain ⟨rfl, rfl⟩ := runs_done_iff.mp h
    cases haltered
    exact .done _
  | ask q next ih =>
    obtain ⟨r, rest, rfl, hr⟩ := runs_ask_iff.mp h
    cases haltered with
    | @cons _ e' _ rest' hhead hrest =>
      obtain ⟨q', r'⟩ := e'
      obtain ⟨hq, hreply⟩ := hhead
      obtain rfl : q' = q := hq
      -- The altered run goes on with its own reply, which leads to the same program.
      apply Runs.ask q' next r' rest' a
      have hnext : next r' = next r := by
        cases hkind : kind q' with
        | true => exact hp.2 hkind r' r
        | false =>
          cases hreply hkind
          rfl
      rw [hnext]
      exact ih r (hp.1 r) hr hrest

end Program

end SqlService
