import Lwm2mClient.Proofs.Scenario.Following
import Lwm2mClient.Proofs.Sessions.Freshness
import Lwm2mClient.Proofs.Store.Purging
import Lwm2mClient.Proofs.Text.Numerals
import Mathlib.Data.List.Basic

/-!
What a description of the objects tells of a store. A description can be read back, and it
tells which objects are hosted and which instances each of them has, in ascending order, but
for the Security object, of which it tells nothing. So two stores are described alike iff they
host the same as far as that.
-/
namespace Lwm2mClient

namespace Links

/-! ### Reading a description -/

/-- The number of an object or an instance. -/
def number? (cs : List Char) : Option NumericId := (Text.natural? 65535 cs).map UInt16.ofNat

/-- The link to what a path names: an object, or an object and one of its instances. -/
def target? : List (List Char) → Option Link
  | [object] => (number? object).map .object
  | [object, id] => do
    let object ← number? object
    let id ← number? id
    return .objectInstance object id
  | _ => none

/-- A link begins with an opening angle bracket and a slash, and ends with the closing bracket. -/
def link? : List Char → Option Link
  | '<' :: '/' :: cs =>
    match cs.splitOn '>' with
    | [path, []] => target? (path.splitOn '/')
    | _ => none
  | _ => none

/-- The links of a description. -/
def links? (s : String) : Option (List Link) :=
  if s.toList = [] then some [] else (s.toList.splitOn ',').mapM link?

/-- Objects with the numbers of their instances. -/
abbrev Outline := List (NumericId × List NumericId)

/-- Neighbouring links to instances of one object are gathered under it. -/
def gather : List Link → Outline
  | [] => []
  | .object o :: rest => (o, []) :: gather rest
  | .objectInstance o i :: rest =>
    match gather rest with
    | [] => [(o, [i])]
    | next :: more => if o = next.1 then (o, i :: next.2) :: more else (o, [i]) :: next :: more

/-- The objects and instances that a description tells of. -/
def outline? (s : String) : Option Outline := (links? s).map gather

variable {c : Char} {link : Link} {e : NumericId × List NumericId} {outline : Outline}
    {links : List Link}

theorem number?_toDigits (n : NumericId) : number? (Nat.toDigits 10 n.toNat) = some n := by
  have hread : Text.natural? 65535 (Nat.toDigits 10 n.toNat) = some n.toNat :=
    Text.natural?_eq_some_iff.mpr ⟨Text.isRow_toDigits n.toNat, Nat.le_of_lt_succ n.toNat_lt⟩
  rw [number?, hread, Option.map_some, UInt16.ofNat_toNat]

/-- The numbers on the path to what is linked, each in decimal digits. -/
def Link.segments : Link → List (List Char)
  | .object o => [Nat.toDigits 10 o.toNat]
  | .objectInstance o i => [Nat.toDigits 10 o.toNat, Nat.toDigits 10 i.toNat]

/-- The path as it is written. -/
def Link.path (link : Link) : List Char := ['/'].intercalate link.segments

theorem Link.toList_text (link : Link) :
    link.text.toList = '<' :: '/' :: (link.path ++ ['>']) := by
  cases link <;> simp [Link.text, Link.path, Link.segments, List.intercalate]

theorem Link.not_mem_of_mem_segments {segment : List Char} (h : segment ∈ link.segments)
    (hc : c.isDigit = false) : c ∉ segment := by
  intro hmem
  have hnumber : ∃ n, segment = Nat.toDigits 10 n := by
    cases link with
    | object o => exact ⟨_, List.mem_singleton.mp h⟩
    | objectInstance o i =>
      rcases List.mem_cons.mp h with rfl | h
      · exact ⟨_, rfl⟩
      · exact ⟨_, List.mem_singleton.mp h⟩
  obtain ⟨n, rfl⟩ := hnumber
  rw [Nat.isDigit_of_mem_toDigits (by decide) (by decide) hmem] at hc
  cases hc

theorem Link.not_mem_path (hc : c.isDigit = false) (hslash : c ≠ '/') : c ∉ link.path := by
  have hnone : ∀ segment ∈ link.segments, c ∉ segment :=
    fun _ h => Link.not_mem_of_mem_segments h hc
  cases link <;> simp_all [Link.path, Link.segments, List.intercalate]

theorem Link.target?_segments (link : Link) : target? link.segments = some link := by
  cases link <;> simp [Link.segments, target?, number?_toDigits]

/-- A link is recovered from its text. -/
theorem Link.link?_text (link : Link) : link? link.text.toList = some link := by
  have hsplit : (link.path ++ ['>']).splitOn '>' = [link.path, []] := by
    have hpath : '>' ∉ link.path := Link.not_mem_path (by decide) (by decide)
    have hpieces : ∀ piece ∈ [link.path, []], '>' ∉ piece := by simp [hpath]
    have hjoined := List.splitOn_intercalate '>' hpieces (List.cons_ne_nil _ _)
    simpa [List.intercalate] using hjoined
  have hsegments : link.path.splitOn '/' = link.segments := by
    refine List.splitOn_intercalate '/' (fun _ h => Link.not_mem_of_mem_segments h (by decide)) ?_
    cases link <;> exact List.cons_ne_nil _ _
  rw [Link.toList_text, link?, hsplit]
  dsimp only
  rw [hsegments, Link.target?_segments]

/-- The links are recovered from the text that describes them. -/
theorem links?_text (links : List Link) : links? (text links) = some links := by
  have hread : (links.map fun link => link.text.toList).mapM link? = some links := by
    induction links with
    | nil => rfl
    | cons link rest ih => rw [List.map_cons, List.mapM_cons, Link.link?_text, ih]; rfl
  have htext :
      (text links).toList = [','].intercalate (links.map fun link => link.text.toList) := by
    simp [text, String.toList_intercalate, Function.comp_def]
  cases links with
  | nil => rfl
  | cons link rest =>
    have hne : (text (link :: rest)).toList ≠ [] := by
      rw [htext]
      cases rest <;> simp [List.intercalate, Link.toList_text]
    have hcomma : ∀ cs ∈ (link :: rest).map fun link => link.text.toList, ',' ∉ cs := by
      simp [Link.toList_text, Link.not_mem_path]
    rw [links?, if_neg hne, htext,
      List.splitOn_intercalate ',' hcomma (List.cons_ne_nil _ _), hread]

/-! ### Objects and their instances -/

/-- The links of an object, given the numbers of its instances. -/
def ofEntry (e : NumericId × List NumericId) : List Link :=
  if e.2 = [] then [.object e.1] else e.2.map fun i => .objectInstance e.1 i

theorem gather_ofEntry_append (h : ∀ next ∈ (gather links).head?, e.1 ≠ next.1) :
    gather (ofEntry e ++ links) = e :: gather links := by
  obtain ⟨o, ids⟩ := e
  cases ids with
  | nil => rfl
  | cons i ids =>
    induction ids generalizing i with
    | nil =>
      change gather (.objectInstance o i :: links) = _
      rw [gather]
      cases hgathered : gather links with
      | nil => rfl
      | cons next more =>
        have hother : o ≠ next.1 := h next (by rw [hgathered]; rfl)
        exact if_neg hother
    | cons j ids ih =>
      change gather (.objectInstance o i :: (ofEntry (o, j :: ids) ++ links)) = _
      rw [gather, ih j h]
      exact if_pos rfl

/-- What was listed in ascending order is gathered again. -/
theorem gather_flatMap_ofEntry (h : outline.Pairwise fun a b => a.1 < b.1) :
    gather (outline.flatMap ofEntry) = outline := by
  induction outline with
  | nil => rfl
  | cons e rest ih =>
    obtain ⟨hfirst, hrest⟩ := List.pairwise_cons.mp h
    rw [List.flatMap_cons, gather_ofEntry_append, ih hrest]
    intro next hnext
    rw [ih hrest] at hnext
    exact UInt16.ne_of_lt (hfirst next (List.mem_of_mem_head? hnext))

theorem outline?_text (h : outline.Pairwise fun a b => a.1 < b.1) :
    outline? (text (outline.flatMap ofEntry)) = some outline := by
  rw [outline?, links?_text, Option.map_some, gather_flatMap_ofEntry h]

/-- An outline tells of a store which objects it hosts, but for the Security object, and which
instances each of them has. Objects and instances are listed in ascending order. -/
structure Tells (outline : Outline) (s : Store) : Prop where
  ascending : outline.Pairwise fun a b => a.1 < b.1
  hosted : ∀ o, (∃ ids, (o, ids) ∈ outline) ↔ o ≠ ObjectId.security ∧ o ∈ s.objectIds
  instances : ∀ o ids, (o, ids) ∈ outline → ids.Pairwise (· < ·) ∧ ∀ i, i ∈ ids ↔
    s.hasInstance o i = true

end Links

namespace Store

open Links

/-- The same objects are hosted in two stores, each with instances under the same numbers. The
Security object does not count, and neither does what an instance holds. -/
structure HostsAlike (a b : Store) : Prop where
  objects : ∀ o, o ≠ ObjectId.security → (o ∈ a.objectIds ↔ o ∈ b.objectIds)
  instances : ∀ o i, o ≠ ObjectId.security → a.hasInstance o i = b.hasInstance o i

/-- What a description of a store tells. -/
def outline (s : Store) : Outline :=
  (s.objects.entries.filter fun e => e.1 ≠ ObjectId.security).map fun e =>
    (e.1, e.2.instances.keys)

variable {s a b : Store} {told other : Outline} {o : NumericId}

theorem mem_outline_iff {ids : List NumericId} :
    (o, ids) ∈ s.outline ↔ o ≠ ObjectId.security ∧ ∃ object, s.read o = some object ∧
    object.instances.keys = ids := by
  simp only [outline, List.mem_map, List.mem_filter, decide_eq_true_iff, Prod.mk.injEq, read,
    IdMap.get?_eq_some_iff]
  constructor
  · rintro ⟨⟨k, object⟩, ⟨hmem, hother⟩, rfl, rfl⟩
    exact ⟨hother, object, hmem, rfl⟩
  · rintro ⟨hother, object, hmem, rfl⟩
    exact ⟨(o, object), ⟨hmem, hother⟩, rfl, rfl⟩

theorem tells_outline (s : Store) : Tells s.outline s := by
  refine ⟨?_, fun o => ?_, fun o ids hmem => ?_⟩
  · exact List.pairwise_map.mpr (s.objects.ascending.filter _)
  · rw [mem_objectIds_iff]
    simp only [mem_outline_iff]
    constructor
    · rintro ⟨ids, hother, object, hread, -⟩
      exact ⟨hother, object, hread⟩
    · rintro ⟨hother, object, hread⟩
      exact ⟨_, hother, object, hread, rfl⟩
  · obtain ⟨-, object, hread, rfl⟩ := mem_outline_iff.mp hmem
    refine ⟨object.instances.keys_pairwise, fun i => ?_⟩
    rw [hasInstance, hread, Option.any_some, IdMap.contains, Option.isSome_iff_exists,
      IdMap.mem_keys_iff]

/-- What an outline tells of a store, it tells of every store that hosts the same. -/
theorem HostsAlike.tells (halike : a.HostsAlike b) (h : Tells told a) : Tells told b := by
  refine ⟨h.ascending, fun o => (h.hosted o).trans ?_, fun o ids hmem => ?_⟩
  · exact and_congr_right fun hother => halike.objects o hother
  · obtain ⟨hascending, hinstances⟩ := h.instances o ids hmem
    have hother : o ≠ ObjectId.security := ((h.hosted o).mp ⟨ids, hmem⟩).1
    exact ⟨hascending, fun i => (hinstances i).trans (by rw [halike.instances o i hother])⟩

theorem hasInstance_of_not_mem (h : o ∉ s.objectIds)
    (i : NumericId) : s.hasInstance o i = false := by
  unfold hasInstance
  cases hread : s.read o with
  | none => rfl
  | some object => exact absurd (mem_objectIds_iff.mpr ⟨object, hread⟩) h

/-- Two stores of which an outline tells host the same. -/
theorem hostsAlike_of_tells (h : Tells told a) (h' : Tells told b) : a.HostsAlike b := by
  have hobjects : ∀ o, o ≠ ObjectId.security → (o ∈ a.objectIds ↔ o ∈ b.objectIds) :=
    fun o hother =>
    and_congr_right_iff.mp ((h.hosted o).symm.trans (h'.hosted o)) hother
  refine ⟨hobjects, fun o i hother => ?_⟩
  by_cases hhosted : o ∈ a.objectIds
  · obtain ⟨ids, hmem⟩ := (h.hosted o).mpr ⟨hother, hhosted⟩
    exact Bool.eq_iff_iff.mpr
      (((h.instances o ids hmem).2 i).symm.trans ((h'.instances o ids hmem).2 i))
  · rw [hasInstance_of_not_mem hhosted,
      hasInstance_of_not_mem (mt (hobjects o hother).mpr hhosted)]

theorem mem_of_tells {ids : List NumericId} (h : Tells told s) (h' : Tells other s)
    (hmem : (o, ids) ∈ told) : (o, ids) ∈ other := by
  obtain ⟨ids', hmem'⟩ := (h'.hosted o).mpr ((h.hosted o).mp ⟨ids, hmem⟩)
  obtain ⟨hascending, hinstances⟩ := h.instances o ids hmem
  obtain ⟨hascending', hinstances'⟩ := h'.instances o ids' hmem'
  have hids : ids = ids' := IdMap.eq_of_ascending (f := id) hascending hascending' fun i =>
    (hinstances i).trans (hinstances' i).symm
  exact hids ▸ hmem'

/-- No two outlines tell of one store. -/
theorem eq_of_tells (h : Tells told s) (h' : Tells other s) : told = other :=
  IdMap.eq_of_ascending h.ascending h'.ascending fun _ => ⟨mem_of_tells h h', mem_of_tells h' h⟩

theorem outline_eq_iff : a.outline = b.outline ↔ a.HostsAlike b :=
  ⟨fun h => hostsAlike_of_tells (tells_outline a) (h ▸ tells_outline b), fun h =>
    eq_of_tells (h.tells (tells_outline a)) (tells_outline b)⟩

/-- The description of a store is made from its outline alone. -/
theorem links_eq (s : Store) :
    (described s.objectIds).flatMap (fun o => ofObject o (s.read o)) =
      s.outline.flatMap ofEntry := by
  have hids : described s.objectIds =
      (s.objects.entries.filter fun e => e.1 ≠ ObjectId.security).map Prod.fst := by
    rw [described, objectIds, IdMap.keys, List.filter_map]
    rfl
  rw [hids, outline, List.flatMap_map, List.flatMap_map]
  refine List.flatMap_congr fun e he => ?_
  have hread : s.read e.1 = some e.2 := IdMap.get?_eq_some_iff.mpr (List.mem_filter.mp he).1
  rw [hread, ofObject, ofEntry, IdMap.keys, List.map_map, IdMap.isEmpty]
  cases e.2.instances.entries <;> rfl

end Store

/-! ### Descriptions of stores -/

namespace Scenario

namespace World

variable {w : World}

theorem take_links (h : w.disturbance = {}) :
    (w.take .links).2 =
      .result (.text (some (Links.text (w.store.outline.flatMap Links.ofEntry)))) := by
  have hview : w.view.links = Links.text (w.store.outline.flatMap Links.ofEntry) := by
    have hread : w.view.object = w.store.read := by
      funext object
      exact if_neg (by rw [h]; exact List.not_mem_nil)
    rw [View.links, View.linksOf, hread, ← w.store.links_eq]
    rfl
  have hkeeps : describeObjects.Keeps (reflecting {})
      (fun text _ => text = Links.text (w.store.outline.flatMap Links.ofEntry)) w.view :=
    Engine.keeps_describeObjects hview
  have htext := consult_of_isReliable describeObjects_reads hkeeps (isReliable_of_plain h)
  change (conclude (fun text => .text (some text)) (w.consult describeObjects)).2 = _
  rw [← Prod.eta (w.consult describeObjects), htext]
  rfl

/-- The description of a store can be read back. It tells which objects are hosted and which
instances each of them has, in ascending order, and another store has the same description iff it
hosts the same, whatever there is of the Security object in either of them. -/
theorem links_tell_hosted (h : w.disturbance = {}) :
    ∃ text told, (w.take .links).2 = .result (.text (some text)) ∧
      Links.outline? text = some told ∧
      Links.Tells told w.store ∧
      ∀ w' : World, w'.disturbance = {} →
      ((w'.take .links).2 = (w.take .links).2 ↔ w'.store.HostsAlike w.store) := by
  have hread : ∀ s : Store, Links.outline? (Links.text (s.outline.flatMap Links.ofEntry)) =
      some s.outline := fun s =>
    Links.outline?_text s.tells_outline.ascending
  refine ⟨_, w.store.outline, take_links h, hread w.store, w.store.tells_outline, fun w' h' => ?_⟩
  rw [take_links h, take_links h', ← Store.outline_eq_iff]
  constructor
  · intro hsame
    have htext := Option.some.inj (Result.text.inj (Effect.result.inj hsame))
    have htold := hread w'.store
    rw [htext, hread w.store] at htold
    exact (Option.some.inj htold).symm
  · intro hsame
    rw [hsame]

end World

/-- Two Server instances and a Device object without instances, and a Security instance. -/
def describedWorld : World :=
  { sampleWorld with
      store := Store.build [
        .put ObjectId.security ((Security.plain "coap://10.0.0.5" 1).toInstance 2),
        .host ObjectId.device,
        .put ObjectId.server ((Server.mk 1 30 "U").toInstance 5),
        .put ObjectId.server ((Server.mk 2 60 "U").toInstance 0)] }

/-- The same objects and instances, which hold something else, and no Security object. -/
def likeWorld : World :=
  { sampleWorld with
      store := Store.build [
        .put ObjectId.server ⟨0, .empty⟩,
        .put ObjectId.server ⟨5, .empty⟩,
        .host ObjectId.device] }

theorem links_tell_hosted_of_two_stores :
    (describedWorld.take .links).2 = .result (.text (some "</1/0>,</1/5>,</3>")) ∧
      (∃ told, Links.outline? "</1/0>,</1/5>,</3>" = some told ∧
        Links.Tells told describedWorld.store) ∧
      likeWorld.store.HostsAlike describedWorld.store := by
  have hdescribed :
      (describedWorld.take .links).2 = .result (.text (some "</1/0>,</1/5>,</3>")) :=
    (World.take_links rfl).trans (congrArg (Effect.result ∘ Result.text) (by decide +kernel))
  have hlike : (likeWorld.take .links).2 = .result (.text (some "</1/0>,</1/5>,</3>")) :=
    (World.take_links rfl).trans (congrArg (Effect.result ∘ Result.text) (by decide +kernel))
  obtain ⟨text, told, htext, hread, htells, hsame⟩ :=
    World.links_tell_hosted (w := describedWorld) rfl
  rw [hdescribed] at htext
  cases htext
  exact ⟨hdescribed, ⟨told, hread, htells⟩,
    (hsame likeWorld rfl).mp (hlike.trans hdescribed.symm)⟩

end Scenario
end Lwm2mClient
