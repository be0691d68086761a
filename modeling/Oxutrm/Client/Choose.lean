import Oxutrm.Ui.Ids

/-!
What a connect does about the sessions a host offers: `--new`, `--attach` or neither. How
`{:?}` writes a text is a parameter; what an offer says of a shell, its age and its size is
left out, for the decision does not look at it.
-/
namespace Oxutrm.Client.Choose

open Oxutrm.Ui (Text Name SessionId)

inductive Choice where
  | attach (id : SessionId)
  | new (name : Option Name)
  | lobby
  deriving DecidableEq, Repr

structure OfferEntry where
  id : SessionId
  name : Option Name
  detachable : Bool
  deriving DecidableEq, Repr

inductive Decision where
  | chosen (choice : Choice)
  | refused (why : Text)
  deriving DecidableEq, Repr

def minAttachPrefix : Nat := 4

def minAttachPrefixWord : Text := "four".toList

/-- A session as a refusal names it. -/
def label (e : OfferEntry) : Text :=
  match e.name with
  | some n => n.text ++ " (".toList ++ e.id.display ++ ")".toList
  | none => e.id.display

def joined (entries : List OfferEntry) : Text := List.intercalate ", ".toList (entries.map label)

def describeLive (offered : List OfferEntry) : Text :=
  if offered.isEmpty then "There are no live sessions on this host.".toList
  else "Live sessions: ".toList ++ joined offered ++ ".".toList

def attachTo (e : OfferEntry) : Decision :=
  if e.detachable then .chosen (.attach e.id)
  else
    .refused ("session ".toList ++ label e ++
      (" is not detachable: it tunnels its data through the ssh connection that created it, " ++
        "so it cannot outlive it and cannot be reattached. Start a new session.").toList)

def isNamed (x : Text) (e : OfferEntry) : Bool :=
  e.name.any fun n => n.text == x

section
variable (debug : Text → Text)

def decideAttach (offered : List OfferEntry) (x : Text) : Decision :=
  match offered.find? (isNamed x) with
  | some named => attachTo named
  | none =>
      if x.length < minAttachPrefix then
        .refused ("no session is named ".toList ++ debug x ++
          ", and an id needs at least ".toList ++ minAttachPrefixWord ++
          " characters. ".toList ++ describeLive offered)
      else
        match offered.filter fun e => e.id.startsWith x with
        | [] =>
            .refused ("no session is named ".toList ++ debug x ++
              " or has an id starting with it. ".toList ++ describeLive offered)
        | [one] => attachTo one
        | many =>
            .refused (debug x ++ " begins more than one session's id: ".toList ++ joined many ++
              ". Give more characters.".toList)

/-- `--new` first, then `--attach`, then the cases without a flag. -/
def decide (offered : List OfferEntry) (attach : Option Text) (new : Bool) (name : Option Name) :
    Decision :=
  if new then .chosen (.new name)
  else
    match attach with
    | some x => decideAttach debug offered x
    | none => if offered.isEmpty then .chosen (.new none) else .chosen .lobby

end

/-- `x` is this session's name, or begins its id. -/
def Matches (x : Text) (e : OfferEntry) : Prop :=
  (∃ n, e.name = some n ∧ n.text = x) ∨ minAttachPrefix ≤ x.length ∧ e.id.startsWith x = true

/-- An offer with pairwise different ids and pairwise different names. -/
structure Distinct (offered : List OfferEntry) : Prop where
  ids : offered.Pairwise fun a b => a.id ≠ b.id
  names : offered.Pairwise fun a b => ∀ n, a.name = some n → b.name ≠ some n

/-- What `--attach` comes to, the listing of sessions apart. -/
inductive Verdict where
  | goTo (e : OfferEntry)
  | tooShort
  | unmatched
  | ambiguous
  deriving DecidableEq, Repr

/-- The decision a verdict gives for an offer, which the refusals list in its own order. -/
def Verdict.on (debug : Text → Text) (x : Text) (offered : List OfferEntry) : Verdict → Decision
  | .goTo e => attachTo e
  | .tooShort =>
      .refused ("no session is named ".toList ++ debug x ++
        ", and an id needs at least ".toList ++ minAttachPrefixWord ++
        " characters. ".toList ++ describeLive offered)
  | .unmatched =>
      .refused ("no session is named ".toList ++ debug x ++
        " or has an id starting with it. ".toList ++ describeLive offered)
  | .ambiguous =>
      .refused (debug x ++ " begins more than one session's id: ".toList ++
        joined (offered.filter fun e => e.id.startsWith x) ++ ". Give more characters.".toList)

/-- A verdict over what the two searches found. -/
def Verdict.of (x : Text) (named : Option OfferEntry) (matching : List OfferEntry) : Verdict :=
  match named with
  | some e => .goTo e
  | none =>
      if x.length < minAttachPrefix then .tooShort
      else
        match matching with
        | [] => .unmatched
        | [one] => .goTo one
        | _ => .ambiguous

theorem decideAttach_eq (debug : Text → Text) (offered : List OfferEntry) (x : Text) :
    decideAttach debug offered x =
      (Verdict.of x (offered.find? (isNamed x))
        (offered.filter fun e => e.id.startsWith x)).on debug x offered := by
  unfold decideAttach Verdict.of
  cases offered.find? (isNamed x) with
  | some named => rfl
  | none =>
      by_cases short : x.length < minAttachPrefix
      · simp only [if_pos short, Verdict.on]
      · simp only [if_neg short]
        cases matching : offered.filter fun e => e.id.startsWith x with
        | nil => rfl
        | cons one rest =>
            cases rest with
            | nil => rfl
            | cons two rest => simp only [Verdict.on, matching]

section Spelling

/-- An id is spelled in the characters a name may not consist of. -/
theorem readsAsId_table : ∀ d : Fin 16, Ui.readsAsId [Config.hexDigit d] = true := by
  decide +kernel

theorem readsAsId_display (id : SessionId) : Ui.readsAsId id.display = true := by
  rw [Ui.readsAsId, List.all_eq_true]
  intro c member
  obtain ⟨b, _, inside⟩ := List.mem_flatMap.mp member
  have bound := b.toNat_lt
  have digit : ∀ d, d < 16 → c = Config.hexDigit d → Ui.readsAsId [c] = true := by
    rintro d small rfl
    exact readsAsId_table ⟨d, small⟩
  have known : Ui.readsAsId [c] = true := by
    simp only [SessionId.hexPair, List.mem_cons, List.not_mem_nil, or_false] at inside
    cases inside with
    | inl same => exact digit _ (by omega) same
    | inr same => exact digit _ (by omega) same
  rw [Ui.readsAsId, List.all_cons, List.all_nil, Bool.and_true] at known
  exact known

theorem not_readsAsId (name : Name) : Ui.readsAsId name.text = false := by
  have valid := name.valid
  cases reads : Ui.readsAsId name.text with
  | false => rfl
  | true =>
      unfold Ui.nameError at valid
      rw [reads] at valid
      simp only [if_true] at valid
      split at valid <;> try cases valid
      split at valid <;> try cases valid
      split at valid <;> try cases valid
      split at valid <;> cases valid

theorem startsWith_name (name : Name) (id : SessionId) : id.startsWith name.text = false := by
  cases begins : id.startsWith name.text with
  | false => rfl
  | true =>
      have member := (List.isPrefixOf_iff_prefix.mp begins).subset
      have reads : Ui.readsAsId name.text = true := by
        have all := readsAsId_display id
        rw [Ui.readsAsId, List.all_eq_true] at all ⊢
        exact fun c inside => all c (member inside)
      rw [not_readsAsId name] at reads
      cases reads

end Spelling

section Searching
variable {offered offered' : List OfferEntry} {x : Text}

theorem isNamed_iff {e : OfferEntry} :
    isNamed x e = true ↔ ∃ n, e.name = some n ∧ n.text = x := by
  unfold isNamed
  cases e.name with
  | none => simp
  | some n => simp

theorem Distinct.eq_of_name (distinct : Distinct offered) {a b : OfferEntry} (left : a ∈ offered)
    (right : b ∈ offered) (first : isNamed x a = true) (second : isNamed x b = true) : a = b := by
  obtain ⟨n, named, text⟩ := isNamed_iff.mp first
  obtain ⟨m, named', text'⟩ := isNamed_iff.mp second
  have same : m = n := by
    cases m
    cases n
    cases text
    cases text'
    rfl
  have symmetric : Std.Symm fun a b : OfferEntry =>
      ∀ n, a.name = some n → b.name = some n → a = b :=
    ⟨fun _ _ known n one two => (known n two one).symm⟩
  have apart : offered.Pairwise fun a b => ∀ n, a.name = some n → b.name = some n → a = b :=
    distinct.names.imp fun differ n one two => absurd two (differ n one)
  exact apart.forall_of_forall (fun _ _ _ _ _ => rfl) left right n named (same ▸ named')

theorem Distinct.nodup (distinct : Distinct offered) : offered.Nodup := by
  apply distinct.ids.imp
  rintro a b differ rfl
  exact differ rfl

theorem matches_named (distinct : Distinct offered) {named e : OfferEntry} (found : named ∈ offered)
    (name : isNamed x named = true) (member : e ∈ offered) : Matches x e ↔ e = named := by
  obtain ⟨n, _, text⟩ := isNamed_iff.mp name
  constructor
  · rintro (other | ⟨_, begins⟩)
    · exact distinct.eq_of_name member found (isNamed_iff.mpr other) name
    · rw [← text, startsWith_name] at begins
      cases begins
  · rintro rfl
    exact .inl (isNamed_iff.mp name)

/-- With no session of that name, the matches are those whose id it begins. -/
theorem matches_unnamed (unnamed : offered.find? (isNamed x) = none) {e : OfferEntry}
    (member : e ∈ offered) :
    Matches x e ↔ minAttachPrefix ≤ x.length ∧ e.id.startsWith x = true := by
  constructor
  · rintro (name | begins)
    · exact absurd (isNamed_iff.mpr name) (List.find?_eq_none.mp unnamed e member)
    · exact begins
  · exact .inr

theorem attachTo_chosen {e : OfferEntry} {id : SessionId} :
    attachTo e = .chosen (.attach id) ↔ e.id = id ∧ e.detachable = true := by
  unfold attachTo
  cases e.detachable with
  | false => simp
  | true => simp

/-- The session that was found, once it is known to be the one match. -/
theorem attachTo_only {one : OfferEntry} (found : one ∈ offered)
    (only : ∀ e ∈ offered, Matches x e ↔ e = one) (id : SessionId) :
    attachTo one = .chosen (.attach id) ↔
      ∃ e ∈ offered, Matches x e ∧ (∀ other ∈ offered, Matches x other → other = e) ∧
        e.id = id ∧ e.detachable = true := by
  rw [attachTo_chosen]
  constructor
  · intro known
    exact ⟨one, found, (only one found).mpr rfl, fun other member => (only other member).mp, known⟩
  · rintro ⟨e, member, hit, _, known⟩
    cases (only e member).mp hit
    exact known

theorem decideAttach_chosen (debug : Text → Text) (distinct : Distinct offered) (id : SessionId) :
    decideAttach debug offered x = .chosen (.attach id) ↔
      ∃ e ∈ offered, Matches x e ∧ (∀ other ∈ offered, Matches x other → other = e) ∧
        e.id = id ∧ e.detachable = true := by
  rw [decideAttach_eq]
  unfold Verdict.of
  cases search : offered.find? (isNamed x) with
  | some named =>
      exact attachTo_only (List.mem_of_find?_eq_some search)
        (fun e member => matches_named distinct (List.mem_of_find?_eq_some search)
          (List.find?_some search) member) id
  | none =>
      have known := fun e member => @matches_unnamed offered x search e member
      by_cases short : x.length < minAttachPrefix
      · simp only [if_pos short, Verdict.on]
        refine ⟨nofun, ?_⟩
        rintro ⟨e, member, hit, _⟩
        exact absurd ((known e member).mp hit).1 (by omega)
      · simp only [if_neg short]
        have long : minAttachPrefix ≤ x.length := by omega
        have hits : ∀ e, e ∈ offered.filter (fun e => e.id.startsWith x) ↔
            e ∈ offered ∧ Matches x e := by
          intro e
          rw [List.mem_filter]
          exact and_congr_right fun member => ⟨fun begins => (known e member).mpr ⟨long, begins⟩,
            fun hit => ((known e member).mp hit).2⟩
        cases matching : offered.filter fun e => e.id.startsWith x with
        | nil =>
            refine ⟨nofun, ?_⟩
            rintro ⟨e, member, hit, _⟩
            have inside := (hits e).mpr ⟨member, hit⟩
            rw [matching] at inside
            cases inside
        | cons one rest =>
            have first : one ∈ offered ∧ Matches x one := (hits one).mp (matching ▸ List.mem_cons_self)
            cases rest with
            | nil =>
                refine attachTo_only first.1 (fun e member => ⟨fun hit => ?_, ?_⟩) id
                · have inside := (hits e).mpr ⟨member, hit⟩
                  rw [matching] at inside
                  exact List.mem_singleton.mp inside
                · rintro rfl
                  exact first.2
            | cons two rest =>
                refine ⟨nofun, ?_⟩
                rintro ⟨e, _, _, only, _⟩
                have second : two ∈ offered ∧ Matches x two :=
                  (hits two).mp (matching ▸ List.mem_cons_of_mem one List.mem_cons_self)
                have apart : (one :: two :: rest).Nodup := matching ▸ distinct.nodup.filter _
                have same := (only one first.1 first.2).trans (only two second.1 second.2).symm
                exact absurd (same ▸ List.mem_cons_self) (List.nodup_cons.mp apart).1

theorem find_perm (distinct : Distinct offered) (reordered : offered.Perm offered') :
    offered'.find? (isNamed x) = offered.find? (isNamed x) := by
  cases search : offered.find? (isNamed x) with
  | none =>
      rw [List.find?_eq_none] at search ⊢
      exact fun e member => search e (reordered.mem_iff.mpr member)
  | some named =>
      have member := List.mem_of_find?_eq_some search
      have name := List.find?_some search
      cases search' : offered'.find? (isNamed x) with
      | none => exact absurd name (List.find?_eq_none.mp search' named (reordered.mem_iff.mp member))
      | some other =>
          have member' := reordered.mem_iff.mpr (List.mem_of_find?_eq_some search')
          rw [distinct.eq_of_name member' member (List.find?_some search') name]

theorem verdict_perm (distinct : Distinct offered) (reordered : offered.Perm offered') :
    Verdict.of x (offered'.find? (isNamed x)) (offered'.filter fun e => e.id.startsWith x) =
      Verdict.of x (offered.find? (isNamed x)) (offered.filter fun e => e.id.startsWith x) := by
  have same := reordered.filter fun e => e.id.startsWith x
  rw [find_perm distinct reordered]
  cases before : offered.filter fun e => e.id.startsWith x with
  | nil =>
      rw [before] at same
      rw [List.nil_perm.mp same]
  | cons one rest =>
      rw [before] at same
      cases rest with
      | nil => rw [List.singleton_perm.mp same]
      | cons two rest =>
          have length := same.length_eq
          cases after : offered'.filter fun e => e.id.startsWith x with
          | nil =>
              rw [after] at length
              cases length
          | cons one' rest' =>
              rw [after] at length
              cases rest' with
              | nil =>
                  simp only [List.length_cons, List.length_nil] at length
                  omega
              | cons two' rest' => rfl

end Searching

/-- `--attach x` picks the one session `x` means, in every order of the offer; only a
refusal's listing of the sessions follows that order. -/
theorem attach_picks_the_one_meant (debug : Text → Text) (offered : List OfferEntry)
    (distinct : Distinct offered) (x : Text) (name : Option Name) :
    (∀ id, decide debug offered (some x) false name = .chosen (.attach id) ↔
        ∃ e ∈ offered, Matches x e ∧ (∀ other ∈ offered, Matches x other → other = e) ∧
          e.id = id ∧ e.detachable = true) ∧
      (∀ (n : Name) (id : SessionId), n.text = x → id.startsWith x = false) ∧
      ∀ offered', offered.Perm offered' →
        ∃ verdict : Verdict,
          decide debug offered (some x) false name = verdict.on debug x offered ∧
          decide debug offered' (some x) false name = verdict.on debug x offered' := by
  refine ⟨decideAttach_chosen debug distinct, ?_, ?_⟩
  · rintro n id rfl
    exact startsWith_name n id
  · intro offered' reordered
    refine ⟨_, decideAttach_eq debug offered x, ?_⟩
    rw [← verdict_perm distinct reordered]
    exact decideAttach_eq debug offered' x

def nameWork : Name := ⟨"work".toList, by decide +kernel⟩

def nameHome : Name := ⟨"home".toList, by decide +kernel⟩

def sessionA : OfferEntry :=
  ⟨⟨List.replicate 16 0xaa, List.length_replicate⟩, some nameWork, true⟩

def sessionB : OfferEntry :=
  ⟨⟨List.replicate 16 0xbb, List.length_replicate⟩, some nameHome, true⟩

theorem attach_picks_the_one_meant_of_two :
    Distinct [sessionA, sessionB] ∧
      decide SessionId.quoted [sessionA, sessionB] (some "work".toList) false none =
        .chosen (.attach sessionA.id) := by
  have distinct : Distinct [sessionA, sessionB] := by
    constructor
    · decide +kernel
    · refine List.pairwise_cons.mpr ⟨?_, List.pairwise_singleton _ _⟩
      intro b member n named
      rw [List.mem_singleton.mp member, ← named]
      decide +kernel
  refine ⟨distinct, ?_⟩
  rw [(attach_picks_the_one_meant _ _ distinct "work".toList none).1]
  refine ⟨sessionA, List.mem_cons_self, .inl ⟨nameWork, rfl, rfl⟩, ?_, rfl, rfl⟩
  intro other member hit
  simp only [List.mem_cons, List.not_mem_nil, or_false] at member
  cases member with
  | inl same => exact same
  | inr same =>
      rw [same] at hit
      obtain ⟨n, named, text⟩ | ⟨_, begins⟩ := hit
      · rw [← Option.some.inj named] at text
        exact absurd text (by decide +kernel)
      · exact absurd begins (by decide +kernel)

/-- A refusal lists the sessions as they were offered. -/
theorem refusals_follow_the_offer :
    [sessionA, sessionB].Perm [sessionB, sessionA] ∧
      decide SessionId.quoted [sessionA, sessionB] (some "cccc".toList) false none ≠
        decide SessionId.quoted [sessionB, sessionA] (some "cccc".toList) false none := by
  refine ⟨List.Perm.swap _ _ _, ?_⟩
  decide +kernel

end Oxutrm.Client.Choose
