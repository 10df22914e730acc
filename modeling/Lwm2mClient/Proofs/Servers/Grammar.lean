import Lwm2mClient.Error
import Lwm2mClient.Proofs.Text.Numerals
import Mathlib.Data.List.TakeWhile

/-!
The grammar of server URIs, told without the way in which they are read. Reading takes the longest
host that there can be, and the grammar leaves no other one: a host in brackets ends at the first
closing bracket, any other one at the first colon, and the authority at the first slash. So
reading accepts the texts of the grammar and no others.
-/
namespace Lwm2mClient

namespace ServerUri

/-! ### The grammar -/

/-- What stands behind a host, and the port that it gives: nothing, and the port is the usual one
of the scheme, or a colon and a number. -/
inductive IsPort : Scheme → List Char → UInt16 → Prop
  | coap : IsPort .coap [] 5683
  | coaps : IsPort .coaps [] 5684
  | given {scheme : Scheme} {cs : List Char} {port : UInt16} (h : Text.IsNumeral cs port.toNat) :
      IsPort scheme (':' :: cs) port

/-- An authority with its host and what stands behind it. A host in brackets holds no closing
bracket; any other one holds no colon and does not begin like one in brackets. -/
inductive IsHost : List Char → List Char → List Char → Prop
  | bracketed {host behind : List Char} (hclosed : ']' ∉ host) :
      IsHost ('[' :: host ++ ']' :: behind) host behind
  | plain {host behind : List Char} (hcolon : ':' ∉ host) (hopen : host.head? ≠ some '[') :
      IsHost (host ++ behind) host behind

/-- A text that is a URI: the scheme, an authority, and nothing or a slash and whatever comes
after it. The authority is a host, which is not empty, and what gives the port. -/
def IsWrittenAs (uri : ServerUri) (cs : List Char) : Prop :=
  ∃ authority path behind, cs = (uri.scheme.text ++ "://").toList ++ (authority ++ path) ∧
    (path = [] ∨ path.head? = some '/') ∧ '/' ∉ authority ∧ '@' ∉ authority ∧
      IsHost authority uri.host.toList behind ∧ uri.host.toList ≠ [] ∧
        IsPort uri.scheme behind uri.port

variable {scheme : Scheme} {port : UInt16} {cs ps rest authority path host behind : List Char}
    {uri : ServerUri}

/-! ### Reading -/

theorem dropStart?_eq_some_iff : dropStart? ps cs = some rest ↔ cs = ps ++ rest := by
  induction ps generalizing cs with
  | nil => simp [dropStart?]
  | cons p ps ih =>
    cases cs with
    | nil => simp [dropStart?]
    | cons c cs =>
      rw [dropStart?]
      split_ifs with hp
      · rw [ih, List.cons_append, hp, List.cons_inj_right]
      · simp [Ne.symm hp]

theorem scheme?_eq_some_iff :
    scheme? cs = some (scheme, rest) ↔ cs = (scheme.text ++ "://").toList ++ rest := by
  -- No text begins with both schemes.
  have hapart :
      ∀ rest rest' : List Char, "coaps://".toList ++ rest ≠ "coap://".toList ++ rest' := by
    intro rest rest' h
    simp at h
  unfold scheme?
  cases hdrop : dropStart? "coaps://".toList cs with
  | some rest' =>
    rw [dropStart?_eq_some_iff] at hdrop
    subst hdrop
    cases scheme with
    | coap => exact iff_of_false nofun (hapart rest' rest)
    | coaps => simp [Scheme.text]
  | none =>
    have hnot : cs ≠ "coaps://".toList ++ rest := fun h => by
      rw [dropStart?_eq_some_iff.mpr h] at hdrop
      cases hdrop
    cases scheme with
    | coap => simp [Scheme.text, dropStart?_eq_some_iff]
    | coaps => exact iff_of_false (by simp) hnot

theorem port?_eq_some_iff : port? scheme behind = some port ↔ IsPort scheme behind port := by
  unfold port?
  split
  · cases scheme with
    | coap =>
      rw [Option.some_inj]
      constructor
      · rintro rfl
        exact .coap
      · rintro ⟨⟩
        rfl
    | coaps =>
      rw [Option.some_inj]
      constructor
      · rintro rfl
        exact .coaps
      · rintro ⟨⟩
        rfl
  · rename_i cs
    rw [Option.map_eq_some_iff]
    constructor
    · rintro ⟨n, hn, rfl⟩
      obtain ⟨hnumeral, hbound⟩ := Text.unsigned?_eq_some_iff.mp hn
      have hvalue : (UInt16.ofNat n).toNat = n :=
        UInt16.toNat_ofNat_of_lt' (Nat.lt_succ_of_le hbound)
      exact .given (hvalue.symm ▸ hnumeral)
    · rintro ⟨⟩
      rename_i hnumeral
      have hbound : port.toNat ≤ 65535 := Nat.le_of_lt_succ port.toNat_lt
      exact ⟨port.toNat, Text.unsigned?_eq_some_iff.mpr ⟨hnumeral, hbound⟩, UInt16.ofNat_toNat⟩
  · rename_i hnil hcolon
    constructor
    · intro h
      cases h
    · rintro ⟨⟩
      · exact absurd rfl hnil
      · exact absurd rfl hnil
      · rename_i cs _
        exact absurd rfl (hcolon cs)

theorem IsPort.behind_eq (h : IsPort scheme behind port) :
    behind = [] ∨ behind.head? = some ':' := by
  cases h with
  | coap | coaps => exact .inl rfl
  | given => exact .inr rfl

/-- What is taken up to a character ends where the text goes on with it. -/
theorem span_append {c : Char} (hhost : c ∉ host)
    (hbehind : behind = [] ∨ behind.head? = some c) :
    (host ++ behind).takeWhile (· ≠ c) = host ∧ (host ++ behind).dropWhile (· ≠ c) = behind := by
  have hall : ∀ x ∈ host, decide (x ≠ c) = true := fun x hx => decide_eq_true fun heq =>
      hhost (heq ▸ hx)
  rw [List.takeWhile_append_of_pos hall, List.dropWhile_append_of_pos hall]
  rcases hbehind with rfl | hhead
  · simp
  · obtain ⟨rest, rfl⟩ := List.head?_eq_some_iff.mp hhead
    simp

theorem splitHost?_of_isHost (h : IsHost authority host behind) (hhost : host ≠ [])
    (hbehind : behind = [] ∨ behind.head? = some ':') :
    splitHost? authority = some (host, behind) := by
  cases h with
  | bracketed hclosed =>
    have hclosing : ']' :: behind = [] ∨ (']' :: behind).head? = some ']' := .inr rfl
    obtain ⟨htake, hdrop⟩ := span_append hclosed hclosing
    simp only [List.cons_append, splitHost?, htake, hdrop]
  | plain hcolon hopen =>
    obtain ⟨htake, hdrop⟩ := span_append hcolon hbehind
    obtain ⟨first, others, rfl⟩ := List.exists_cons_of_ne_nil hhost
    have hfirst : first ≠ '[' := fun heq => hopen (congrArg some heq)
    unfold splitHost?
    split
    · rename_i cs heq
      exact absurd (List.cons.inj heq).1 hfirst
    · rw [htake, hdrop]

theorem isHost_of_splitHost? (h : splitHost? authority = some (host, behind)) :
    IsHost authority host behind := by
  unfold splitHost? at h
  split at h
  · rename_i cs
    split at h
    · rename_i c rest hdrop
      cases h
      have hc : c = ']' := by
        have hstops := List.head?_dropWhile_not (· ≠ ']') cs
        rw [hdrop] at hstops
        simpa using hstops
      subst hc
      have hcs : cs = cs.takeWhile (· ≠ ']') ++ ']' :: behind := by
        rw [← hdrop, List.takeWhile_append_dropWhile]
      have hclosed : ']' ∉ cs.takeWhile (· ≠ ']') := fun hmem => by
        simpa using List.mem_takeWhile_imp hmem
      have hhost : IsHost ('[' :: cs.takeWhile (· ≠ ']') ++ ']' :: behind) _ behind :=
        .bracketed hclosed
      rwa [List.cons_append, ← hcs] at hhost
    · cases h
  · rename_i hopen
    cases h
    have hcolon : ':' ∉ authority.takeWhile (· ≠ ':') := fun hmem => by
      simpa using List.mem_takeWhile_imp hmem
    have hplain : (authority.takeWhile (· ≠ ':')).head? ≠ some '[' := by
      intro hhead
      obtain ⟨rest, hrest⟩ := List.head?_eq_some_iff.mp hhead
      have hauthority := List.takeWhile_append_dropWhile (p := (· ≠ ':')) (l := authority)
      rw [hrest] at hauthority
      exact hopen _ hauthority.symm
    have hhost : IsHost (authority.takeWhile (· ≠ ':') ++ authority.dropWhile (· ≠ ':')) _ _ :=
      .plain hcolon hplain
    rwa [List.takeWhile_append_dropWhile] at hhost

theorem ofAuthority?_eq_some_iff :
    ofAuthority? scheme authority = some uri ↔ uri.scheme = scheme ∧ '@' ∉ authority ∧
      ∃ behind, IsHost authority uri.host.toList behind ∧ uri.host.toList ≠ [] ∧
        IsPort scheme behind uri.port := by
  unfold ofAuthority?
  by_cases hat : '@' ∈ authority
  · simp [hat]
  · simp only [hat, if_false, bind, pure, Option.bind_eq_some_iff, not_false_eq_true, true_and]
    constructor
    · rintro ⟨⟨host, behind⟩, hsplit, h⟩
      by_cases hhost : host = []
      · simp [hhost] at h
      · simp only [List.isEmpty_iff, hhost, if_false, Option.bind_eq_some_iff] at h
        obtain ⟨port, hport, huri⟩ := h
        cases huri
        rw [String.toList_ofList]
        exact ⟨rfl, behind, isHost_of_splitHost? hsplit, hhost, port?_eq_some_iff.mp hport⟩
    · rintro ⟨rfl, behind, hhost, hne, hport⟩
      refine ⟨(uri.host.toList, behind), splitHost?_of_isHost hhost hne hport.behind_eq, ?_⟩
      simp only [List.isEmpty_iff, hne, if_false, Option.bind_eq_some_iff]
      exact ⟨uri.port, port?_eq_some_iff.mpr hport, by rw [String.ofList_toList]⟩

theorem ofText?_eq_some_iff (s : String) : ofText? s = some uri ↔ uri.IsWrittenAs s.toList := by
  unfold ofText?
  simp only [bind, Option.bind_eq_some_iff, ofAuthority?_eq_some_iff]
  constructor
  · rintro ⟨⟨scheme, rest⟩, hscheme, rfl, hat, behind, hhost⟩
    have hslash : '/' ∉ rest.takeWhile (· ≠ '/') := fun hmem => by
      simpa using List.mem_takeWhile_imp hmem
    have hpath : rest.dropWhile (· ≠ '/') = [] ∨ (rest.dropWhile (· ≠ '/')).head? = some '/' := by
      have hstops := List.head?_dropWhile_not (· ≠ '/') rest
      cases hrest : rest.dropWhile (· ≠ '/') with
      | nil => exact .inl rfl
      | cons c others =>
        rw [hrest] at hstops
        exact .inr (congrArg some (by simpa using hstops))
    refine ⟨rest.takeWhile (· ≠ '/'), rest.dropWhile (· ≠ '/'), behind, ?_, hpath,
      hslash, hat, hhost⟩
    rw [List.takeWhile_append_dropWhile]
    exact scheme?_eq_some_iff.mp hscheme
  · rintro ⟨authority, path, behind, htext, hpath, hslash, hat, hhost⟩
    refine ⟨(uri.scheme, authority ++ path), scheme?_eq_some_iff.mpr htext, rfl, ?_⟩
    rw [(span_append hslash hpath).1]
    exact ⟨hat, behind, hhost⟩

theorem read_eq_ok_iff {s : String} : read s = .ok uri ↔ uri.IsWrittenAs s.toList := by
  rw [← ofText?_eq_some_iff, read]
  cases ofText? s <;> simp

theorem read_eq_error {s : String} {e : Error} (h : read s = .error e) : e = .invalidUri s := by
  unfold read at h
  split at h
  · cases h
  · exact (Except.error.inj h).symm

/-- Reading accepts the texts of the grammar, each with the one URI that it is the text of, and
refuses every other text as the invalid URI that it is. -/
theorem read_iff_isWrittenAs (s : String) :
    (∀ uri, read s = .ok uri ↔ uri.IsWrittenAs s.toList) ∧
      ∀ e, read s = .error e ↔
        e = .invalidUri s ∧ ∀ uri : ServerUri, ¬uri.IsWrittenAs s.toList := by
  refine ⟨fun uri => read_eq_ok_iff, fun e =>
    ⟨fun h => ⟨read_eq_error h, fun uri huri => ?_⟩, ?_⟩⟩
  · rw [read_eq_ok_iff.mpr huri] at h
    cases h
  · rintro ⟨rfl, hnone⟩
    cases hread : read s with
    | ok uri => exact absurd (read_eq_ok_iff.mp hread) (hnone uri)
    | error e => rw [read_eq_error hread]

end ServerUri
end Lwm2mClient
