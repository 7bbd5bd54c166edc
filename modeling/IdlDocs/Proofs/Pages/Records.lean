import IdlDocs.Proofs.Pages.Composed

/-!
# Records of requests

* `answerAt_assemble`, `answerAt_assemble_of_group`: the record of a request, by its group.
* `answerAt_assembleIn_overview` and those for a constructor, a member and an event: **the
  record of each kind of page**, by what is looked up for it.
* `foundAt_memberPage_eq_some_iff`: the fields of the record of a member.
-/

namespace IdlDocs

open Idl

variable {l : Library} {r : Registry}

theorem answerAt_assemble (l : Library) (r : Registry) (p : Request) :
    answerAt l r (assemble p) =
      andThen (some (outcomeAt l r (groupName p))) fun group => answerAt l r (assembleIn p group) :=
  (Ends.ofAttempt (.groupName p)).answerAt_bind fun group => .assembleIn p group

theorem answerAt_assemble_of_group {p : Request} {group : Option String}
    (hg : outcomeAt l r (groupName p) = .ok group) :
    answerAt l r (assemble p) = answerAt l r (assembleIn p group) := by
  rw [answerAt_assemble, hg]
  rfl

/-! ## The kinds of pages -/

variable (p : Request) (group : Option String)

theorem answerAt_assembleIn_overview (hp : p.selector = .overview) :
    answerAt l r (assembleIn p group) =
      (answerAt l r (overview p.interface)).map (·.map fun o =>
        .interface (.ofOverview o group p.experimental)) := by
  unfold assembleIn
  rw [hp]
  exact ((Ends.overview p.interface).answerAt_bind fun o => .answer (.ok _)).trans
    (andThen_ok _ _)

theorem answerAt_foundPage {a : Attempt FoundMember} (ha : Composed a.result) :
    answerAt l r (do let found ← a; return Page.member (← memberPage p found group)) =
      andThen (some (outcomeAt l r a)) fun found =>
        (foundAt l r (memberPage p found group)).map fun page => .ok (.member page) := by
  refine ((Ends.ofAttempt ha).answerAt_bind fun found =>
    (Ends.memberPage p found group).ofSearch.inquire fun page => .answer (.ok _)).trans ?_
  rw [answerAt_ofAttempt]
  congr 1
  funext found
  refine ((Ends.memberPage p found group).ofSearch.answerAt_bind fun page =>
    .answer (.ok _)).trans ?_
  rw [answerAt_ofSearch]
  cases foundAt l r (memberPage p found group) <;> rfl

theorem answerAt_assembleIn_constructor (hp : p.selector = .constructor) :
    answerAt l r (assembleIn p group) =
      andThen (some (outcomeAt l r (findConstructor p.interface))) fun found =>
        (foundAt l r (memberPage p found group)).map fun page => .ok (.member page) := by
  unfold assembleIn
  rw [hp]
  exact answerAt_foundPage p group (.findConstructor p.interface)

theorem answerAt_assembleIn_member {name : String} {isStatic : Bool}
    (hp : p.selector = .member name isStatic) :
    answerAt l r (assembleIn p group) =
      andThen (some (outcomeAt l r (findMember p.interface name isStatic))) fun found =>
        (foundAt l r (memberPage p found group)).map fun page => .ok (.member page) := by
  unfold assembleIn
  rw [hp]
  exact answerAt_foundPage p group (.findMember p.interface name isStatic)

theorem answerAt_assembleIn_event {event : String} (hp : p.selector = .event event) :
    answerAt l r (assembleIn p group) =
      (answerAt l r (findEvent p.interface event)).map (·.map fun found =>
        .event (eventPage p event found group)) := by
  unfold assembleIn
  rw [hp]
  exact ((Ends.findEvent p.interface event).answerAt_bind fun found => .answer (.ok _)).trans
    (andThen_ok _ _)

/-! ## Members -/

/-- **The record of a member**, by the texts of its parameters and types. -/
theorem foundAt_memberPage_eq_some_iff {found : FoundMember} {page : MemberPage} :
    foundAt l r (memberPage p found group) = some page ↔
      ∃ parameters returnType propertyType,
        foundAt l r (parameterEntries found.member) = some parameters ∧
        foundAt l r (returnText found.member) = some returnType ∧
        foundAt l r (propertyText found.member) = some propertyType ∧
        page =
          { interface := p.interface
            member := if found.member.isConstructor then p.interface else found.member.nameOrEmpty
            isExperimental := p.experimental
            group
            isStatic := !found.member.isConstructor && found.member.isStatic
            isConstructor := found.member.isConstructor
            isSecure := found.isSecure
            parameters, returnType
            kind := pageKind found.member
            propertyType
            isReadonly := found.member.readonly } := by
  unfold memberPage
  dsimp only
  rw [(Ends.parameterEntries _).foundAt_bind fun _ => (Ends.returnText _).search fun _ =>
    (Ends.propertyText _).search fun _ => .found _, Option.bind_eq_some_iff]
  refine exists_congr fun parameters => ?_
  rw [(Ends.returnText _).foundAt_bind fun _ => (Ends.propertyText _).search fun _ => .found _,
    Option.bind_eq_some_iff, ← exists_and_left]
  refine exists_congr fun returnType => ?_
  rw [(Ends.propertyText _).foundAt_bind fun _ => .found _, Option.bind_eq_some_iff,
    ← exists_and_left, ← exists_and_left]
  refine exists_congr fun propertyType => ?_
  refine and_congr_right fun _ => and_congr_right fun _ => and_congr_right fun _ => ?_
  exact Option.some_inj.trans eq_comm

end IdlDocs
