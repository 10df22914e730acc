import Lwm2mClient.Inspector.Report
import Mathlib.Data.List.Basic

/-!
What the inspector prints. Endpoints and URIs are whatever the arguments say, but no
other line begins as the one that tells what a client would do first, so the
decision can be read off the report.
-/
namespace Lwm2mClient.Inspector

open Net Text

/-- Whether a text begins as the one that tells what a client would do first. -/
def Printed.isVerdict (p : Printed) : Prop := p.text.toList.take 6 = "[LC] 👍".toList

theorem isVerdict_decisionLine_iff {endpoint : String} {d : Decision} :
    (decisionLine endpoint d).isVerdict ↔ d.exitCode = 0 := by
  cases d with
  | register server =>
    refine iff_of_true ?_ rfl
    simp only [decisionLine, plain, Printed.isVerdict, String.toList_append, List.append_assoc]
    rfl
  | bootstrap server =>
    refine iff_of_true ?_ rfl
    simp only [decisionLine, plain, Printed.isVerdict, String.toList_append, List.append_assoc]
    rfl
  | nothing =>
    refine iff_of_false ?_ Nat.one_ne_zero
    simp only [decisionLine, plain, Printed.isVerdict]
    decide
  | unsupported error =>
    refine iff_of_false ?_ Nat.one_ne_zero
    simp only [decisionLine, plain, Printed.isVerdict, String.toList_append]
    simp

theorem not_isVerdict_of_head {p : Printed}
    (h : p.text.toList.head? ≠ some '[') : ¬ p.isVerdict := by
  intro hverdict
  refine h ?_
  have hhead : (p.text.toList.take 6).head? = some '[' := by
    rw [hverdict]
    rfl
  cases hlist : p.text.toList with
  | nil =>
    rw [hlist] at hhead
    exact hhead
  | cons c cs =>
    rw [hlist] at hhead
    exact hhead

theorem not_isVerdict_logged (level : Log.Level) (origin text : String) :
    ¬ (logged level origin text).isVerdict := by
  cases level <;> simp [logged, Printed.isVerdict, Log.Level.name]

theorem not_isVerdict_of_loggedLines {level : Log.Level} {lines : List Log.Line} {p : Printed}
    (h : p ∈ loggedLines level lines) : ¬ p.isVerdict := by
  obtain ⟨line, -, rfl⟩ := List.mem_map.mp h
  exact not_isVerdict_logged _ _ _

/-- Lines of a field or an item are indented. -/
theorem head?_of_mem_item {label line : String} {lines : List String}
    (h : line ∈ Outline.item label lines) : line.toList.head? = some ' ' := by
  unfold Outline.item at h
  split at h
  · cases h
  · obtain rfl := List.mem_singleton.mp h
    simp
  · rcases List.mem_cons.mp h with rfl | hmore
    · simp
    · rcases List.mem_append.mp hmore with hinner | hlast
      · obtain ⟨inner, -, rfl⟩ := List.mem_map.mp hinner
        simp
      · obtain ⟨last, -, rfl⟩ := Option.map_eq_some_iff.mp (Option.mem_toList.mp hlast)
        simp

theorem head?_of_mem_fieldLines {line : String} {fields : List (String × Outline)}
    (h : line ∈ Outline.fieldLines fields) : line.toList.head? = some ' ' := by
  induction fields with
  | nil =>
    rw [Outline.fieldLines] at h
    cases h
  | cons field rest ih =>
    rw [Outline.fieldLines] at h
    rcases List.mem_append.mp h with hfirst | hrest
    · exact head?_of_mem_item hfirst
    · exact ih hrest

theorem not_isVerdict_of_debugLines {level : Log.Level} {first : String} {more : List String}
    {p : Printed} (hmore : ∀ line ∈ more, line.toList.head? ≠ some '[')
    (h : p ∈ debugLines level (first :: more)) : ¬ p.isVerdict := by
  unfold debugLines at h
  split at h
  · rcases List.mem_cons.mp h with rfl | hplain
    · exact not_isVerdict_logged _ _ _
    · obtain ⟨line, hline, rfl⟩ := List.mem_map.mp hplain
      exact not_isVerdict_of_head (hmore line hline)
  · cases h

theorem not_isVerdict_of_debugLine {level : Log.Level} {text : String} {p : Printed}
    (h : p ∈ debugLines level [text]) : ¬ p.isVerdict :=
  not_isVerdict_of_debugLines (fun _ hline => absurd hline List.not_mem_nil) h

/-- No line of an outline that is printed behind its first looks like a verdict. -/
theorem not_isVerdict_of_serversOutline {level : Log.Level} {servers : Servers} {p : Printed}
    (h : p ∈ debugLines level (serversOutline servers).lines) : ¬ p.isVerdict := by
  unfold serversOutline at h
  rw [Outline.lines, List.append_assoc, List.singleton_append] at h
  refine not_isVerdict_of_debugLines (fun line hline => ?_) h
  rcases List.mem_append.mp hline with hfield | hend
  · rw [head?_of_mem_fieldLines hfield]
    simp
  · obtain rfl := List.mem_singleton.mp hend
    decide

/-- The digits of a number are no brackets. -/
theorem ne_of_mem_toDigits {n : Nat} {c : Char}
    (h : c ∈ Nat.toDigits 16 n) : c.toUpper ≠ '[' := by
  have hcore : ∀ (fuel n : Nat) (ds : List Char), (∀ c ∈ ds, c.toUpper ≠ '[') →
      ∀ c ∈ Nat.toDigitsCore 16 fuel n ds, c.toUpper ≠ '[' := by
    have hdigit : ∀ k : Fin 16, (Nat.digitChar k).toUpper ≠ '[' := by decide
    intro fuel
    induction fuel with
    | zero => exact fun n ds hds => hds
    | succ fuel ih =>
      intro n ds hds
      have hnext : ∀ c ∈ Nat.digitChar (n % 16) :: ds, c.toUpper ≠ '[' :=
        List.forall_mem_cons.mpr ⟨hdigit ⟨n % 16, Nat.mod_lt _ (by decide)⟩, hds⟩
      unfold Nat.toDigitsCore
      dsimp only
      split
      · exact hnext
      · exact ih _ _ hnext
  exact hcore _ _ _ (fun c hc => absurd hc List.not_mem_nil) c h

theorem head?_of_digits {n : Nat} : (HexView.digits 8 n).head? ≠ some '[' := by
  intro h
  rcases List.mem_append.mp (List.mem_of_head? h) with hzero | hdigit
  · cases List.eq_of_mem_replicate hzero
  · obtain ⟨c, hc, hupper⟩ := List.mem_map.mp hdigit
    exact ne_of_mem_toDigits hc hupper

theorem digits_ne_nil (n : Nat) : HexView.digits 8 n ≠ [] := by
  intro h
  obtain ⟨hzeros, hdigits⟩ := List.append_eq_nil_iff.mp h
  rw [hdigits] at hzeros
  cases hzeros

theorem head?_of_mem_rowsFrom {offset count : Nat} {bytes : Bytes} {line : String}
    (h : line ∈ HexView.rowsFrom offset bytes count) : line.toList.head? ≠ some '[' := by
  induction count generalizing offset bytes with
  | zero => cases h
  | succ count ih =>
    unfold HexView.rowsFrom at h
    split at h
    · cases h
    · rcases List.mem_cons.mp h with rfl | hrest
      · intro hhead
        refine head?_of_digits (n := offset) ?_
        rw [HexView.row, String.toList_ofList] at hhead
        simp only [List.append_assoc] at hhead
        rw [List.head?_append_of_ne_nil _ (digits_ne_nil offset)] at hhead
        exact hhead
      · exact ih hrest

/-! ### The verdict -/

theorem not_isVerdict_of_identityLines {level : Log.Level} {hosts : Hosts} {securities : Object}
    {peer : SocketAddress} {p : Printed}
    (h : p ∈ identityLines level hosts securities peer) : ¬ p.isVerdict := by
  rcases List.mem_append.mp h with hlogged | hidentity
  · exact not_isVerdict_of_loggedLines hlogged
  · split at hidentity
    · cases hidentity
    · rcases List.mem_cons.mp hidentity with rfl | hkey
      · simp only [Printed.isVerdict, plain, String.toList_append]
        simp
      · split at hkey
        · obtain ⟨line, hline, rfl⟩ := List.mem_map.mp hkey
          exact not_isVerdict_of_head (head?_of_mem_rowsFrom hline)
        · cases hkey

theorem not_isVerdict_of_serverLines {level : Log.Level} {hosts : Hosts} {securities : Object}
    {server : ManagementServer} {p : Printed}
    (h : p ∈ serverLines level hosts securities server) : ¬ p.isVerdict := by
  rcases List.mem_cons.mp h with rfl | hidentity
  · simp only [managementLine, Printed.isVerdict, plain, String.toList_append]
    simp
  · split at hidentity
    · exact not_isVerdict_of_identityLines hidentity
    · cases hidentity

theorem not_isVerdict_bootstrapLine (server : ServerInfo) :
    ¬ (bootstrapLine server).isVerdict := by
  simp only [bootstrapLine, Printed.isVerdict, plain, String.toList_append]
  simp

theorem not_isVerdict_links (text : String) :
    ¬ (plain ("[LC] 🔗 object links " ++ text)).isVerdict := by
  simp only [Printed.isVerdict, plain, String.toList_append]
  simp

/-- Of all that is printed, only the line of the decision tells what a client would do first. -/
theorem mem_reportOn_iff {level : Log.Level} {hosts : Hosts} {endpoint : String} {store : Store}
    {securities servers : Object} {p : Printed} (hverdict : p.isVerdict) :
    p ∈ (reportOn level hosts endpoint store securities servers).printed ↔
      p = decisionLine endpoint
        (Decision.ofServers (Extraction.servers hosts securities servers)) := by
  unfold reportOn
  dsimp only
  refine ⟨fun h => ?_, fun h => ?_⟩
  · rcases List.mem_append.mp h with h | hcode
    · rcases List.mem_append.mp h with h | hcount
      · rcases List.mem_append.mp h with h | hend
        · rcases List.mem_append.mp h with h | hmanagement
          · rcases List.mem_append.mp h with h | hbootstrap
            · rcases List.mem_append.mp h with hlogged | houtline
              · exact absurd hverdict (not_isVerdict_of_loggedLines hlogged)
              · exact absurd hverdict (not_isVerdict_of_serversOutline houtline)
            · obtain ⟨server, -, rfl⟩ := List.mem_map.mp hbootstrap
              exact absurd hverdict (not_isVerdict_bootstrapLine server)
          · obtain ⟨server, -, hserver⟩ := List.mem_flatMap.mp hmanagement
            exact absurd hverdict (not_isVerdict_of_serverLines hserver)
        · rcases List.mem_cons.mp hend with rfl | hdecision
          · exact absurd hverdict (not_isVerdict_links _)
          · exact List.mem_singleton.mp hdecision
      · exact absurd hverdict (not_isVerdict_of_debugLine hcount)
    · exact absurd hverdict (not_isVerdict_of_debugLine hcode)
  · subst h
    simp only [List.mem_append, List.mem_cons, true_or, or_true]

/-- Two decisions are to do the same, with servers that have the same text. -/
def Decision.Alike : Decision → Decision → Prop
  | .register server, .register other | .bootstrap server, .bootstrap other =>
    server.uri.text = other.uri.text
  | _, _ => False

/-- A decision to do something can be told from its line. -/
theorem decisionLine_eq_iff {endpoint : String} {d d' : Decision} (h : d.exitCode = 0) :
    decisionLine endpoint d = decisionLine endpoint d' ↔ d.Alike d' := by
  have hother : d'.exitCode ≠ 0 → decisionLine endpoint d ≠ decisionLine endpoint d' :=
    fun hcode heq =>
    hcode (isVerdict_decisionLine_iff.mp (heq ▸ isVerdict_decisionLine_iff.mpr h))
  have hverb : ∀ server other,
      decisionLine endpoint (.register server) ≠ decisionLine endpoint (.bootstrap other) := by
    intro server other heq
    have hcut := congrArg (fun p => p.text.toList.take 14) heq
    simp only [decisionLine, plain, String.toList_append, List.append_assoc] at hcut
    simp at hcut
  have htext : ∀ {first second : String} {server other : ServerInfo},
      plain (first ++ endpoint ++ second ++ server.uri.text) =
        plain (first ++ endpoint ++ second ++ other.uri.text) ↔
        server.uri.text = other.uri.text := by
    intro first second server other
    refine ⟨fun heq => ?_, fun heq => by rw [heq]⟩
    have hlist := congrArg (fun p => p.text.toList) heq
    simp only [plain, String.toList_append, List.append_cancel_left_eq] at hlist
    exact String.toList_inj.mp hlist
  cases d <;> cases d' <;> first
    | exact htext
    | exact iff_of_false (hverb _ _) id
    | exact iff_of_false (hverb _ _).symm id
    | exact iff_of_false (hother Nat.one_ne_zero) id
    | exact absurd h Nat.one_ne_zero

/-- The inspector says that a client would do something first. -/
def Outcome.Says (o : Outcome) (endpoint : String) (d : Decision) : Prop :=
  decisionLine endpoint d ∈ o.printed

/-- What the inspector makes of some arguments: a report, by itself or behind a banner where a
command line gives the arguments. -/
inductive Outcome.IsFor (hosts : Hosts) (a : Arguments) : Outcome → Prop
  | report : IsFor hosts a (report hosts a)
  | inspect {args : List String} (hargs : CommandLine.ofArguments args = .report a) :
      IsFor hosts a (inspect hosts args)

namespace Outcome.IsFor

variable {hosts : Hosts} {a : Arguments} {o : Outcome}

theorem exitCode_eq (ho : o.IsFor hosts a) :
    o.exitCode = (Inspector.report hosts a).exitCode := by
  cases ho with
  | report => rfl
  | inspect hargs => simp only [Inspector.inspect, hargs]

/-- With or without its banner, the inspector says the same. -/
theorem says_iff (ho : o.IsFor hosts a) {d : Decision} (hd : d.exitCode = 0) :
    o.Says a.endpoint d ↔ (Inspector.report hosts a).Says a.endpoint d := by
  cases ho with
  | report => exact Iff.rfl
  | @inspect args hargs =>
    have hprinted : (Inspector.inspect hosts args).printed =
        plain banner :: (Inspector.report hosts a).printed := by
      simp only [Inspector.inspect, hargs]
    have hverdict : (decisionLine a.endpoint d).isVerdict := isVerdict_decisionLine_iff.mpr hd
    have hbanner : decisionLine a.endpoint d ≠ plain banner := by
      intro heq
      rw [heq] at hverdict
      revert hverdict
      simp only [Printed.isVerdict, plain, banner]
      decide
    rw [Says, Says, hprinted, List.mem_cons]
    exact or_iff_right hbanner

end Outcome.IsFor

/-- What a report says of a provisioned store is what is decided by the servers found there. -/
theorem report_says_iff {a : Arguments} {store : Store} {securities servers : Object}
    (hosts : Hosts) (hstore : provision a = .ok store)
    (hsecurities : store.read ObjectId.security = some securities)
    (hservers : store.read ObjectId.server = some servers) :
    (report hosts a).exitCode =
      (Decision.ofServers (Extraction.servers hosts securities servers)).exitCode ∧
      ∀ d : Decision, d.exitCode = 0 → ((report hosts a).Says a.endpoint d ↔
        d.Alike (Decision.ofServers (Extraction.servers hosts securities servers))) := by
  have hreport : report hosts a =
      reportOn (levelOf a.verbosity) hosts a.endpoint store securities servers := by
    simp only [report, hstore, hsecurities, hservers]
  rw [hreport]
  refine ⟨rfl, fun d hd => ?_⟩
  have hverdict : (decisionLine a.endpoint d).isVerdict := isVerdict_decisionLine_iff.mpr hd
  rw [Outcome.Says, mem_reportOn_iff hverdict]
  exact decisionLine_eq_iff hd

end Lwm2mClient.Inspector
