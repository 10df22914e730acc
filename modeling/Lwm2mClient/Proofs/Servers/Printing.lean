import Lwm2mClient.Proofs.Servers.Grammar

/-!
The text of a server URI, read again. Printing puts a host in brackets iff it holds a colon.
Reading goes by the first character of the authority, and ends a host at the first closing bracket
or the first colon and the authority at the first slash. The two agree on the hosts that hold
nothing at which they would be cut or taken apart, and on no others.
-/
namespace Lwm2mClient.ServerUri

/-- Whether a host keeps its meaning when it is printed. One with a colon is printed in
brackets, so it must not close them; any other one is printed as it is, so it must not
begin like one in brackets. -/
structure IsNameable (host : List Char) : Prop where
  nonempty : host ≠ []
  slash : '/' ∉ host
  sender : '@' ∉ host
  closing : ':' ∈ host → ']' ∉ host
  opening : ':' ∉ host → host.head? ≠ some '['

/-- The port behind a host, as it is printed. -/
def printedPort (u : ServerUri) : List Char := ':' :: Nat.toDigits 10 u.port.toNat

/-- The host and the port, as they are printed. -/
def printedAuthority (u : ServerUri) : List Char :=
  if ':' ∈ u.host.toList then '[' :: u.host.toList ++ ']' :: u.printedPort
    else u.host.toList ++ u.printedPort

variable {u : ServerUri} {c d : Char} {host authority behind xs ys : List Char}

theorem toList_text (u : ServerUri) :
    u.text.toList = (u.scheme.text ++ "://").toList ++ u.printedAuthority := by
  unfold text printedAuthority printedPort
  split_ifs <;> simp

theorem isPort_printedPort (u : ServerUri) : IsPort u.scheme u.printedPort u.port :=
  .given (.inl (Text.isRow_toDigits u.port.toNat))

/-- What is printed around a host are brackets, a colon and digits. -/
theorem mem_host_of_mem_printedAuthority (h : c ∈ u.printedAuthority)
    (hmark : c ∉ [':', '[', ']']) (hdigit : c.isDigit = false) : c ∈ u.host.toList := by
  have hport : c ∉ u.printedPort := by
    intro hmem
    rcases List.mem_cons.mp hmem with rfl | hmem
    · exact hmark (by decide)
    · rw [Nat.isDigit_of_mem_toDigits (by decide) (by decide) hmem] at hdigit
      cases hdigit
  unfold printedAuthority at h
  split_ifs at h
  · rcases List.mem_append.mp h with hopened | hclosed
    · refine (List.mem_cons.mp hopened).resolve_left ?_
      rintro rfl
      exact hmark (by decide)
    · rcases List.mem_cons.mp hclosed with rfl | hmem
      · exact absurd (by decide) hmark
      · exact absurd hmem hport
  · exact (List.mem_append.mp h).resolve_right hport

theorem isHost_printedAuthority (h : IsNameable u.host.toList) :
    IsHost u.printedAuthority u.host.toList u.printedPort := by
  unfold printedAuthority
  split_ifs with hcolon
  · exact .bracketed (h.closing hcolon)
  · exact .plain hcolon (h.opening hcolon)

theorem isWrittenAs_text (h : IsNameable u.host.toList) : u.IsWrittenAs u.text.toList := by
  refine ⟨u.printedAuthority, [], u.printedPort, ?_, .inl rfl, fun hmem => ?_, fun hmem => ?_,
    isHost_printedAuthority h, h.nonempty, isPort_printedPort u⟩
  · rw [List.append_nil, toList_text]
  · exact h.slash (mem_host_of_mem_printedAuthority hmem (by decide) (by decide))
  · exact h.sender (mem_host_of_mem_printedAuthority hmem (by decide) (by decide))

theorem IsHost.subset (h : IsHost authority host behind) : host ⊆ authority := by
  cases h with
  | bracketed _ => exact fun c hc => List.mem_append_left _ (List.mem_cons_of_mem _ hc)
  | plain _ _ => exact List.subset_append_left _ _

/-- A row that is shifted by one character runs over what stood behind it. -/
theorem mem_of_shifted (hne : c ≠ d) (h : host ++ c :: xs = d :: host ++ ys) : c ∈ host := by
  induction host generalizing d with
  | nil => exact absurd (List.cons.inj h).1 hne
  | cons x host ih =>
    obtain ⟨-, hrest⟩ := List.cons.inj h
    by_cases hx : c = x
    · exact hx ▸ List.mem_cons_self
    · exact List.mem_cons_of_mem x (ih hx hrest)

theorem isNameable_of_isWrittenAs
    (h : u.IsWrittenAs u.text.toList) : IsNameable u.host.toList := by
  obtain ⟨authority, path, behind, htext, -, hslash, hat, hhost, hne, -⟩ := h
  have hauthority : u.printedAuthority = authority ++ path := by
    rw [toList_text] at htext
    exact List.append_cancel_left htext
  refine ⟨hne, fun hmem => hslash (hhost.subset hmem), fun hmem =>
    hat (hhost.subset hmem), ?_, ?_⟩
  · intro hcolon
    cases hhost with
    | bracketed hclosed => exact hclosed
    | plain hnone _ => exact absurd hcolon hnone
  · intro hcolon
    cases hhost with
    | bracketed _ =>
      -- The host was printed without brackets, so what was read as its first one is its own.
      rw [printedAuthority, if_neg hcolon, printedPort, List.append_assoc] at hauthority
      exact absurd (mem_of_shifted (by decide) hauthority) hcolon
    | plain _ hopen => exact hopen

theorem read_text_eq_ok_iff (u : ServerUri) : read u.text = .ok u ↔ IsNameable u.host.toList :=
  read_eq_ok_iff.trans ⟨isNameable_of_isWrittenAs, isWrittenAs_text⟩

/-- The text of a URI is read as that URI iff its host keeps its meaning when it is printed.
Otherwise the text is refused or is that of another server. -/
theorem printing_iff_isNameable (u : ServerUri) :
    (read u.text = .ok u ↔ IsNameable u.host.toList) ∧
      ((read u.text = .error (.invalidUri u.text) ∨
        ∃ other, other ≠ u ∧ read u.text = .ok other) ↔
        ¬IsNameable u.host.toList) := by
  refine ⟨read_text_eq_ok_iff u, ?_⟩
  rw [← read_text_eq_ok_iff]
  cases hread : read u.text with
  | ok other => simp
  | error e =>
    rw [read_eq_error hread]
    simp

end Lwm2mClient.ServerUri
