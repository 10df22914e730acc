import Lwm2mClient.Proofs.Service.Tracks

/-!
The courses that operations can take, told by the marks that they leave. Every attempt to register
or to bootstrap leaves a mark, whether or not it comes to send its request, so a course tells also
which attempts were not made.
-/
namespace Lwm2mClient

inductive Request.Kind where
  | register
  | update
  | deregister
  | bootstrap
  deriving DecidableEq

def Request.kind : Request → Request.Kind
  | register .. => .register
  | update _ => .update
  | deregister _ => .deregister
  | bootstrap _ => .bootstrap

namespace Service

/-! ### What was sent -/

abbrev Exchange := Request × Option Response

/-- An Update answered Changed, or a Register answered Created with an id. -/
def Exchange.isSuccess : Exchange → Bool
  | (.update _, some ⟨.changed, _⟩) | (.register .., some ⟨.created, some _⟩) => true
  | _ => false

/-- A Deregister answered Deleted or Not Found. -/
def Exchange.isRelease : Exchange → Bool
  | (.deregister _, some response) => response.code = .deleted || response.code = .notFound
  | _ => false

def Mark.exchange? : Mark → Option Exchange
  | sent request answer => some (request, answer)
  | _ => none

/-- The requests of an operation with their answers, the earliest first. -/
def exchanges (marks : List Mark) : List Exchange := marks.filterMap Mark.exchange?

/-- The kinds of the requests of an operation, in order. -/
def word (marks : List Mark) : List Request.Kind := (exchanges marks).map fun x => x.1.kind

theorem exchanges_append (marks marks' : List Mark) :
    exchanges (marks ++ marks') = exchanges marks ++ exchanges marks' :=
  List.filterMap_append

theorem word_append (marks marks' : List Mark) :
    word (marks ++ marks') = word marks ++ word marks' := by
  rw [word, exchanges_append, List.map_append]
  rfl

theorem word_sent (request : Request) (answer : Option Response) (marks : List Mark) :
    word (.sent request answer :: marks) = request.kind :: word marks := rfl

/-! ### Courses -/

/-- An attempt to register. -/
inductive Registers : List Mark → Bool → Prop
  | unsent : Registers [.registrationFailed] false
  | refused {request : Request} {answer : Option Response} (hkind : request.kind = .register)
      (hanswer : Exchange.isSuccess (request, answer) = false) :
      Registers [.sent request answer, .registrationFailed] false
  | granted {request : Request} {answer : Option Response} (hkind : request.kind = .register)
      (hanswer : Exchange.isSuccess (request, answer) = true) :
      Registers [.sent request answer] true

/-- An attempt to bootstrap; it goes on to register once the session is finished. -/
inductive Bootstraps : List Mark → Bool → Prop
  | unsent : Bootstraps [.bootstrapUnsent] false
  | failed {request : Request} {answer : Option Response} (hkind : request.kind = .bootstrap) :
      Bootstraps [.sent request answer, .bootstrapFailed] false
  | finished {request : Request} {registration : Option String} {marks : List Mark}
      {result : Bool} (hkind : request.kind = .bootstrap) (hregisters : Registers marks result) :
      Bootstraps (.sent request (some ⟨.changed, registration⟩) :: marks) result

/-- An attempt to register, and one to bootstrap if that fails. -/
inductive Escalates : List Mark → Bool → Prop
  | registered {marks : List Mark} (hregisters : Registers marks true) : Escalates marks true
  | bootstrapped {marks marks' : List Mark} {result : Bool} (hregisters : Registers marks false)
      (hbootstraps : Bootstraps marks' result) : Escalates (marks ++ marks') result

/-- An update. A server that rejects it leads to an attempt to register, one that stays silent to
an attempt to bootstrap, and what is missing in the configuration to neither. -/
inductive Updates : List Mark → Bool → Prop
  | skipped : Updates [.updateSkipped] false
  | unsent : Updates [.updateFailed] false
  | updated {id : String} {registration : Option String} :
      Updates [.sent (.update id) (some ⟨.changed, registration⟩)] true
  | rejected {id : String} {response : Response} {marks : List Mark} {result : Bool}
      (hcode : response.code ≠ .changed) (hescalates : Escalates marks result) :
      Updates (.sent (.update id) (some response) :: marks) result
  | timedOut {id : String} {marks : List Mark} {result : Bool}
      (hbootstraps : Bootstraps marks result) : Updates (.sent (.update id) none :: marks) result

/-- A first decision. -/
inductive Starts : List Mark → Bool → Prop
  | known {marks : List Mark} {result : Bool}
      (hescalates : Escalates marks result) : Starts marks result
  | unknown {marks : List Mark} {result : Bool} (hbootstraps : Bootstraps marks result) :
      Starts marks result

inductive Deregisters : List Mark → Bool → Prop
  | unsent {result : Bool} : Deregisters [] result
  | sent {id : String} {answer : Option Response} :
      Deregisters [.sent (.deregister id) answer] (Exchange.isRelease (.deregister id, answer))

/-- The course of a job, from its turn to its end. -/
def Job.Follows : Job → List Mark → Bool → Prop
  | operation .register => Registers
  | operation .update => Updates
  | operation .bootstrap => Bootstraps
  | operation .deregister => Deregisters
  | operation .stop | operation .shutdown => fun marks result =>
    ∃ before, marks = before ++ [.stopped] ∧ Deregisters before result
  | task _ _ .start => Starts
  | task _ _ (.renewal _) => fun marks result => marks = [] ∧ result = false ∨
      Updates marks result

/-! ### The requests of a course -/

/-- Words of one letter, no word or one of some words, and one word after another. -/
def letter (kind : Request.Kind) : List (List Request.Kind) := [[kind]]

def optional (words : List (List Request.Kind)) : List (List Request.Kind) := [] :: words

def followed (words words' : List (List Request.Kind)) : List (List Request.Kind) :=
  words.flatMap fun w => words'.map (w ++ ·)

/-- An attempt to bootstrap may send a Bootstrap request, and then a Register request. -/
def bootstrapWords : List (List Request.Kind) :=
  optional (followed (letter .bootstrap) (optional (letter .register)))

def escalationWords : List (List Request.Kind) :=
  followed (optional (letter .register)) bootstrapWords

def updateWords : List (List Request.Kind) :=
  optional (followed (letter .update) (optional escalationWords))

/-- The sequences of requests that a job may send. -/
def Job.words : Job → List (List Request.Kind)
  | operation .register => optional (letter .register)
  | operation .update | task _ _ (.renewal _) => updateWords
  | operation .bootstrap => bootstrapWords
  | operation .deregister | operation .stop | operation .shutdown => optional (letter .deregister)
  | task _ _ .start => escalationWords

theorem nil_mem_optional (words : List (List Request.Kind)) : [] ∈ optional words :=
  List.mem_cons_self

theorem mem_optional {words : List (List Request.Kind)} {w : List Request.Kind} (h : w ∈ words) :
    w ∈ optional words :=
  List.mem_cons_of_mem _ h

theorem append_mem_followed {words words' : List (List Request.Kind)} {w w' : List Request.Kind}
    (h : w ∈ words) (h' : w' ∈ words') : w ++ w' ∈ followed words words' :=
  List.mem_flatMap.mpr ⟨w, h, List.mem_map.mpr ⟨w', h', rfl⟩⟩

theorem cons_mem_followed {words : List (List Request.Kind)} {kind : Request.Kind}
    {w : List Request.Kind} (h : w ∈ words) : kind :: w ∈ followed (letter kind) words :=
  append_mem_followed (w := [kind]) (List.mem_singleton.mpr rfl) h

variable {marks : List Mark} {result : Bool}

theorem Registers.word (h : Registers marks result) :
    Service.word marks ∈ optional (letter .register) := by
  cases h with
  | unsent => exact nil_mem_optional _
  | refused hkind hanswer =>
    rw [word_sent, hkind]
    exact mem_optional List.mem_cons_self
  | granted hkind hanswer =>
    rw [word_sent, hkind]
    exact mem_optional List.mem_cons_self

theorem Bootstraps.word (h : Bootstraps marks result) : Service.word marks ∈ bootstrapWords := by
  cases h with
  | unsent => exact nil_mem_optional _
  | failed hkind =>
    rw [word_sent, hkind]
    exact mem_optional (cons_mem_followed (nil_mem_optional _))
  | finished hkind hregisters =>
    rw [word_sent, hkind]
    exact mem_optional (cons_mem_followed hregisters.word)

theorem Escalates.word (h : Escalates marks result) : Service.word marks ∈ escalationWords := by
  cases h with
  | registered hregisters =>
    have hword : Service.word marks ++ [] ∈ escalationWords :=
      append_mem_followed hregisters.word (nil_mem_optional _)
    rwa [List.append_nil] at hword
  | bootstrapped hregisters hbootstraps =>
    rw [word_append]
    exact append_mem_followed hregisters.word hbootstraps.word

theorem mem_escalationWords {w : List Request.Kind} (h : w ∈ bootstrapWords) :
    w ∈ escalationWords :=
  append_mem_followed (w := []) (nil_mem_optional _) h

theorem Updates.word (h : Updates marks result) : Service.word marks ∈ updateWords := by
  cases h with
  | skipped => exact nil_mem_optional _
  | unsent => exact nil_mem_optional _
  | updated => exact mem_optional (cons_mem_followed (nil_mem_optional _))
  | rejected hcode hescalates =>
    exact mem_optional (cons_mem_followed (mem_optional hescalates.word))
  | timedOut hbootstraps =>
    exact mem_optional (cons_mem_followed (mem_optional (mem_escalationWords hbootstraps.word)))

theorem Starts.word (h : Starts marks result) : Service.word marks ∈ escalationWords := by
  cases h with
  | known hescalates => exact hescalates.word
  | unknown hbootstraps => exact mem_escalationWords hbootstraps.word

theorem Deregisters.word (h : Deregisters marks result) :
    Service.word marks ∈ optional (letter .deregister) := by
  cases h with
  | unsent => exact nil_mem_optional _
  | sent => exact mem_optional List.mem_cons_self

theorem Job.Follows.word {job : Job} (h : job.Follows marks result) :
    Service.word marks ∈ job.words := by
  have hstops : (∃ before, marks = before ++ [.stopped] ∧ Deregisters before result) →
      Service.word marks ∈ optional (letter .deregister) := by
    rintro ⟨before, rfl, hderegisters⟩
    rw [word_append]
    exact (List.append_nil (Service.word before)).symm ▸ hderegisters.word
  cases job with
  | operation o =>
    cases o with
    | register => exact Registers.word h
    | update => exact Updates.word h
    | bootstrap => exact Bootstraps.word h
    | deregister => exact Deregisters.word h
    | stop => exact hstops h
    | shutdown => exact hstops h
  | task due number work =>
    cases work with
    | start => exact Starts.word h
    | renewal generation =>
      rcases h with ⟨rfl, -⟩ | hupdates
      · exact nil_mem_optional _
      · exact Updates.word hupdates

/-- No job sends more than one Update, one Bootstrap and two Register requests. -/
theorem count_of_mem_words {job : Job} {w : List Request.Kind} (h : w ∈ job.words) :
    w.count .update ≤ 1 ∧ w.count .bootstrap ≤ 1 ∧ w.count .register ≤ 2 := by
  have hbounded : ∀ w ∈ updateWords ++ escalationWords ++ bootstrapWords ++
      optional (letter .register) ++ optional (letter .deregister),
        w.count .update ≤ 1 ∧ w.count .bootstrap ≤ 1 ∧ w.count .register ≤ 2 := by
    decide
  apply hbounded
  cases job with
  | operation o => cases o <;> simp_all [Job.words]
  | task due number work => cases work <;> simp_all [Job.words]

/-! ### The result of a course -/

/-- A result tells whether the last request was a success, and nothing was sent after a
success. -/
structure Ends (sent : List Exchange) (result : Bool) : Prop where
  last : result = true ↔ ∃ x, sent.getLast? = some x ∧ x.isSuccess = true
  earlier : ∀ x ∈ sent.dropLast, x.isSuccess = false

namespace Ends

variable {sent sent' : List Exchange}

theorem of_vain (h : ∀ x ∈ sent, x.isSuccess = false) : Ends sent false where
  last := by
    constructor
    · intro hresult
      cases hresult
    · rintro ⟨x, hx, hsuccess⟩
      rw [h x (List.mem_of_getLast? hx)] at hsuccess
      cases hsuccess
  earlier x hx := h x ((List.dropLast_sublist sent).subset hx)

theorem nil : Ends [] false := of_vain (by simp)

theorem of_success {x : Exchange} (h : x.isSuccess = true) : Ends [x] true where
  last := ⟨fun _ => ⟨x, rfl, h⟩, fun _ => rfl⟩
  earlier y hy := by cases hy

theorem vain (h : Ends sent false) : ∀ x ∈ sent, x.isSuccess = false := by
  intro x hx
  rcases List.eq_nil_or_concat sent with rfl | ⟨before, y, rfl⟩
  · cases hx
  · rw [List.concat_eq_append] at h hx
    have hlast : y.isSuccess = false := by
      rw [← Bool.not_eq_true]
      intro hy
      have hresult := h.last.mpr ⟨y, List.getLast?_concat, hy⟩
      cases hresult
    rcases List.mem_append.mp hx with hbefore | hx
    · exact h.earlier x (by rwa [List.dropLast_concat])
    · rw [List.mem_singleton.mp hx]
      exact hlast

/-- What was sent in vain before does not matter. -/
theorem append (h : Ends sent false) (h' : Ends sent' result) : Ends (sent ++ sent') result := by
  rcases List.eq_nil_or_concat sent' with rfl | ⟨before, y, rfl⟩
  · have hresult : result = false := by
      rw [← Bool.not_eq_true]
      intro hresult
      obtain ⟨x, hx, -⟩ := h'.last.mp hresult
      cases hx
    rw [hresult, List.append_nil]
    exact h
  · rw [List.concat_eq_append] at h' ⊢
    constructor
    · rw [h'.last, ← List.append_assoc, List.getLast?_concat, List.getLast?_concat]
    · intro x hx
      rw [← List.append_assoc, List.dropLast_concat] at hx
      rcases List.mem_append.mp hx with hsent | hbefore
      · exact h.vain x hsent
      · exact h'.earlier x (by rwa [List.dropLast_concat])

/-- Nor does a request that was no success. -/
theorem cons {x : Exchange} (hx : x.isSuccess = false) (h : Ends sent result) :
    Ends (x :: sent) result := by
  have hvain : Ends [x] false := of_vain fun y hy => by rwa [List.mem_singleton.mp hy]
  exact hvain.append h

end Ends

theorem isSuccess_of_bootstrap {request : Request} (h : request.kind = .bootstrap)
    (answer : Option Response) : Exchange.isSuccess (request, answer) = false := by
  cases request <;> simp_all [Request.kind, Exchange.isSuccess]

theorem Registers.ends (h : Registers marks result) : Ends (exchanges marks) result := by
  cases h with
  | unsent => exact Ends.nil
  | refused hkind hanswer =>
    refine Ends.of_vain fun x hx => ?_
    rw [List.mem_singleton.mp hx]
    exact hanswer
  | granted hkind hanswer => exact Ends.of_success hanswer

theorem Bootstraps.ends (h : Bootstraps marks result) : Ends (exchanges marks) result := by
  cases h with
  | unsent => exact Ends.nil
  | failed hkind => exact (Ends.nil).cons (isSuccess_of_bootstrap hkind _)
  | finished hkind hregisters => exact hregisters.ends.cons (isSuccess_of_bootstrap hkind _)

theorem Escalates.ends (h : Escalates marks result) : Ends (exchanges marks) result := by
  cases h with
  | registered hregisters => exact hregisters.ends
  | bootstrapped hregisters hbootstraps =>
    rw [exchanges_append]
    exact hregisters.ends.append hbootstraps.ends

theorem isSuccess_of_rejected {id : String} {response : Response} (h : response.code ≠ .changed) :
    Exchange.isSuccess (.update id, some response) = false := by
  obtain ⟨code, registration⟩ := response
  cases code <;> simp_all [Exchange.isSuccess]

theorem Updates.ends (h : Updates marks result) : Ends (exchanges marks) result := by
  cases h with
  | skipped => exact Ends.nil
  | unsent => exact Ends.nil
  | updated => exact Ends.of_success rfl
  | rejected hcode hescalates => exact hescalates.ends.cons (isSuccess_of_rejected hcode)
  | timedOut hbootstraps => exact hbootstraps.ends.cons rfl

theorem Starts.ends (h : Starts marks result) : Ends (exchanges marks) result := by
  cases h with
  | known hescalates => exact hescalates.ends
  | unknown hbootstraps => exact hbootstraps.ends

/-! ### What a course does to a renewal -/

/-- Whether a mark tells that the renewal was cancelled or replaced: by an update, a success, a
release or the loss of the registration, or a stop. -/
def Mark.supersedes : Mark → Bool
  | sent (.update _) _ => true
  | sent request answer =>
    Exchange.isSuccess (request, answer) || Exchange.isRelease (request, answer)
  | bootstrapUnsent => false
  | registrationFailed | updateSkipped | updateFailed | bootstrapFailed | stopped => true

/-- Whether a mark tells of a success. -/
def Mark.isSuccess : Mark → Bool
  | sent request answer => Exchange.isSuccess (request, answer)
  | _ => false

def superseded (marks : List Mark) : Bool := marks.any Mark.supersedes

theorem superseded_append (marks marks' : List Mark) :
    superseded (marks ++ marks') = (superseded marks || superseded marks') :=
  List.any_append

theorem Mark.supersedes_of_isSuccess {m : Mark}
    (h : m.isSuccess = true) : m.supersedes = true := by
  cases m with
  | sent request answer =>
    cases request <;> simp_all [Mark.isSuccess, Mark.supersedes]
  | _ => cases h

theorem superseded_of_last {m : Mark} (hlast : marks.getLast? = some m)
    (h : m.supersedes = true) : superseded marks = true :=
  List.any_eq_true.mpr ⟨m, List.mem_of_getLast? hlast, h⟩

/-- Where a job is about to renew the registration, it leaves the mark of the success last. -/
def EndsInSuccess (marks : List Mark) : Prop :=
  ∃ m, marks.getLast? = some m ∧ m.isSuccess = true

theorem EndsInSuccess.append (h : EndsInSuccess marks) (before : List Mark) :
    EndsInSuccess (before ++ marks) := by
  obtain ⟨m, hlast, hsuccess⟩ := h
  refine ⟨m, ?_, hsuccess⟩
  rw [List.getLast?_append, hlast]
  rfl

theorem EndsInSuccess.superseded (h : EndsInSuccess marks) : Service.superseded marks = true := by
  obtain ⟨m, hlast, hsuccess⟩ := h
  exact superseded_of_last hlast (Mark.supersedes_of_isSuccess hsuccess)

theorem Registers.endsInSuccess (h : Registers marks true) : EndsInSuccess marks := by
  cases h with
  | granted hkind hanswer => exact ⟨_, rfl, hanswer⟩

theorem Bootstraps.endsInSuccess (h : Bootstraps marks true) : EndsInSuccess marks := by
  cases h with
  | finished hkind hregisters => exact hregisters.endsInSuccess.append [_]

theorem Escalates.endsInSuccess (h : Escalates marks true) : EndsInSuccess marks := by
  cases h with
  | registered hregisters => exact hregisters.endsInSuccess
  | bootstrapped hregisters hbootstraps => exact hbootstraps.endsInSuccess.append _

theorem Updates.endsInSuccess (h : Updates marks true) : EndsInSuccess marks := by
  cases h with
  | updated => exact ⟨_, rfl, rfl⟩
  | rejected hcode hescalates => exact hescalates.endsInSuccess.append [_]
  | timedOut hbootstraps => exact hbootstraps.endsInSuccess.append [_]

theorem Starts.endsInSuccess (h : Starts marks true) : EndsInSuccess marks := by
  cases h with
  | known hescalates => exact hescalates.endsInSuccess
  | unknown hbootstraps => exact hbootstraps.endsInSuccess

theorem Registers.superseded (h : Registers marks result) : Service.superseded marks = true := by
  cases h with
  | unsent => rfl
  | refused hkind hanswer => simp [Service.superseded, Mark.supersedes]
  | granted hkind hanswer => exact (Registers.granted hkind hanswer).endsInSuccess.superseded

theorem Escalates.superseded (h : Escalates marks result) : Service.superseded marks = true := by
  cases h with
  | registered hregisters => exact hregisters.superseded
  | bootstrapped hregisters hbootstraps =>
    rw [superseded_append, hregisters.superseded]
    rfl

theorem Updates.superseded (h : Updates marks result) : Service.superseded marks = true := by
  cases h <;> rfl

/-- Only an attempt to bootstrap that came to no session leaves the renewal alone. -/
theorem Bootstraps.superseded_or (h : Bootstraps marks result) :
    Service.superseded marks = true ∨ marks = [.bootstrapUnsent] ∧ result = false := by
  cases h with
  | unsent => exact Or.inr ⟨rfl, rfl⟩
  | failed hkind => simp [Service.superseded, Mark.supersedes]
  | finished hkind hregisters =>
    rw [← List.singleton_append, superseded_append, hregisters.superseded, Bool.or_true]
    exact Or.inl rfl

end Service
end Lwm2mClient
