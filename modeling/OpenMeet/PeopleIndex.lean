import OpenMeet.HistoryPeople
import OpenMeet.Urls

/-!
The people of a meeting, found by a key. The server keeps them in a list, with
an index from the text of a key to a place in the list. A key begins with what
it is the key of, so an account and a guest never have the same one, and the
list is that of the groups of connections with one key.
-/
namespace OpenMeet.PeopleIndex

open KeyedMap Text Messages Accounts SocialTables MeetingSessions Urls Grouping
open HistoryPeople (startPerson mergePerson addConnection_eq departure absorbing)

/-! ## Keys -/

def connectionKey (env : Environment) (connection : Connection) : String :=
  match connection.userId with
  | some userId => "user:" ++ uuidText userId
  | none => "guest:" ++ env.toLowercase (trim connection.displayName)

/-! ## The index -/

structure IndexedPeople where
  people : List MeetingPerson
  indexByKey : Map String Nat

section Index

variable (env : Environment) (viewerId : Option Uuid)

/-- There is no result if the index names a place that is not in the list. -/
def addToIndex (s : IndexedPeople) (connection : Connection) : Option IndexedPeople :=
  let key := connectionKey env connection
  match s.indexByKey.lookup key with
  | some index =>
    s.people[index]?.map fun person =>
      { s with
        people := s.people.set index
          { person with leftAt := latestLeft person.leftAt connection.leftAt } }
  | none =>
    some
      { people := s.people ++ [{
          userId := connection.userId
          name := connection.accountName.getD connection.displayName
          nickname := connection.nickname
          avatarUrl := connection.avatarUrl
          joinedAt := connection.joinedAt
          leftAt := connection.leftAt
          isYou := viewerId.isSome && connection.userId = viewerId }]
        indexByKey := s.indexByKey.insert key s.people.length }

def groupPeopleIndexed (connections : List Connection) : Option (List MeetingPerson) :=
  (connections.foldlM (addToIndex env viewerId) ⟨[], ∅⟩).map (·.people)

end Index

/-! ## One text for each key -/

section Keys

def keyText : PersonKey → String
  | .user id => "user:" ++ uuidText id
  | .guest name => "guest:" ++ name

theorem connectionKey_eq (env : Environment) (connection : Connection) :
    connectionKey env connection = keyText (personKey env connection) := by
  unfold connectionKey personKey
  cases connection.userId with
  | some id => rfl
  | none => rfl

theorem keyText_injective : Function.Injective keyText := by
  intro first second h
  have hlists := congrArg String.toList h
  cases first with
  | user id =>
    cases second with
    | user other =>
      simp only [keyText, String.toList_append, List.append_cancel_left_eq] at hlists
      rw [uuidText_injective (String.toList_inj.mp hlists)]
    | guest name =>
      simp [keyText, String.toList_append] at hlists
  | guest name =>
    cases second with
    | user other =>
      simp [keyText, String.toList_append] at hlists
    | guest other =>
      simp only [keyText, String.toList_append, List.append_cancel_left_eq] at hlists
      rw [String.toList_inj.mp hlists]

end Keys

/-! ## The index finds the groups -/

/-- The people are those of the groups, and the index gives the place of each group. -/
structure Indexes (s : IndexedPeople) (groups : List (PersonKey × MeetingPerson)) : Prop where
  people : s.people = groups.map Prod.snd
  place : ∀ text, s.indexByKey.lookup text =
    (groups.map Prod.fst).findIdx? fun key => keyText key = text

section Grouped

variable {env : Environment} {viewerId : Option Uuid} {s : IndexedPeople}
  {groups : List (PersonKey × MeetingPerson)}

variable (env viewerId) in
theorem addToIndex_indexes (hs : Indexes s groups) (hnodup : (groups.map Prod.fst).Nodup)
    (connection : Connection) : ∃ t, addToIndex env viewerId s connection = some t ∧
      Indexes t (addRow (personKey env) (startPerson viewerId) mergePerson groups connection) := by
  have hlookup := hs.place (connectionKey env connection)
  unfold addToIndex
  dsimp only
  cases hfound : s.indexByKey.lookup (connectionKey env connection) with
  | some index =>
    rw [hfound] at hlookup
    obtain ⟨hlt, hkey, -⟩ := List.findIdx?_eq_some_iff_getElem.mp hlookup.symm
    rw [List.length_map] at hlt
    rw [decide_eq_true_eq, List.getElem_map, connectionKey_eq] at hkey
    have hgroup : groups[index]? = some (personKey env connection, groups[index].2) := by
      rw [List.getElem?_eq_getElem hlt, ← keyText_injective hkey]
    have hperson : s.people[index]? = some groups[index].2 := by
      rw [hs.people, List.getElem?_map, hgroup, Option.map_some]
    simp only [hperson]
    refine ⟨_, rfl, ?_, ?_⟩
    · rw [map_snd_addRow hnodup hgroup, hs.people]
      rfl
    · have hmem : personKey env connection ∈ groups.map Prod.fst :=
        List.mem_map.mpr ⟨_, List.mem_of_getElem? hgroup, rfl⟩
      have hany : groups.any (·.1 = personKey env connection) = true := by
        simpa using hmem
      intro text
      rw [hs.place, addRow, if_pos hany, List.map_map]
      congr 1
      apply List.map_congr_left
      intro group _
      simp only [Function.comp_apply]
      split <;> rfl
  | none =>
    rw [hfound] at hlookup
    have hnone := List.findIdx?_eq_none_iff.mp hlookup.symm
    have hany : ¬groups.any (·.1 = personKey env connection) = true := by
      intro h
      obtain ⟨group, hgroup, hkey⟩ := List.any_eq_true.mp h
      have hne := hnone group.1 (List.mem_map_of_mem hgroup)
      rw [connectionKey_eq, ← of_decide_eq_true hkey] at hne
      simp at hne
    refine ⟨_, rfl, ?_, ?_⟩
    · rw [addRow, if_neg hany, List.map_append, ← hs.people]
      rfl
    · intro text
      rw [addRow, if_neg hany, List.map_append, List.findIdx?_append, ← hs.place]
      by_cases htext : text = connectionKey env connection
      · subst htext
        rw [AList.lookup_insert, hfound, hs.people]
        simp [connectionKey_eq]
      · have hne : ¬keyText (personKey env connection) = text := by
          rw [← connectionKey_eq]
          exact Ne.symm htext
        rw [AList.lookup_insert_ne htext]
        simp [hne]

variable (env viewerId) in
theorem foldlM_addToIndex (connections : List Connection) :
    ∃ t, connections.foldlM (addToIndex env viewerId) ⟨[], ∅⟩ = some t ∧
      Indexes t (connections.foldl (addConnection env viewerId) []) := by
  rw [addConnection_eq]
  induction connections using List.reverseRecOn with
  | nil => exact ⟨_, rfl, rfl, fun _ => rfl⟩
  | append_singleton connections connection ih =>
    obtain ⟨s, hs, hindexes⟩ := ih
    have hnodup : ((connections.foldl (addRow (personKey env) (startPerson viewerId) mergePerson)
        []).map Prod.fst).Nodup := by
      rw [map_fst_foldl]
      exact nodup_keysOf connections
    obtain ⟨t, ht, hstep⟩ := addToIndex_indexes env viewerId hindexes hnodup connection
    refine ⟨t, ?_, ?_⟩
    · rw [List.foldlM_append, hs]
      simpa using ht
    · rw [List.foldl_append]
      exact hstep

/-- Every place in the index is in the list, and the list is that of the groups. -/
theorem groupPeopleIndexed_eq (connections : List Connection) :
    groupPeopleIndexed env viewerId connections = some (groupPeople env connections viewerId) := by
  obtain ⟨t, ht, hindexes⟩ := foldlM_addToIndex env viewerId connections
  unfold groupPeopleIndexed
  rw [ht, Option.map_some, hindexes.people]
  rfl

end Grouped

/-! ## Who is in the list -/

/-- The texts of the keys, in the order in which they first appear. -/
def keysInOrder (env : Environment) (connections : List Connection) : List String :=
  (connections.map (connectionKey env)).eraseDups

/-- What the list says of the connections with a key. -/
structure IsPerson (env : Environment) (viewerId : Option Uuid) (connections : List Connection)
    (key : String) (person : MeetingPerson) : Prop where
  starts : ∃ first, connections.find? (connectionKey env · = key) = some first ∧
    person = { startPerson viewerId first with leftAt := person.leftAt }
  account : ∀ c ∈ connections, connectionKey env c = key → c.userId = person.userId
  stays : person.leftAt = none ↔ ∃ c ∈ connections, connectionKey env c = key ∧ c.leftAt = none
  latest : ∀ time ∈ person.leftAt,
    (∃ c ∈ connections, connectionKey env c = key ∧ c.leftAt = some time) ∧
      ∀ c ∈ connections, connectionKey env c = key → ∀ left ∈ c.leftAt, left ≤ time

section People

variable {env : Environment} {viewerId : Option Uuid} {connections : List Connection}
  {key : PersonKey} {person : MeetingPerson}

theorem foldl_mergePerson (person : MeetingPerson) : connections.foldl mergePerson person =
    { person with leftAt := (connections.foldl mergePerson person).leftAt } := by
  induction connections generalizing person with
  | nil => rfl
  | cons first rest ih => exact ih (mergePerson person first)

theorem connectionKey_eq_iff {c : Connection} :
    connectionKey env c = keyText key ↔ personKey env c = key := by
  rw [connectionKey_eq]
  exact keyText_injective.eq_iff

theorem userId_of_personKey {c c' : Connection} (h : personKey env c = personKey env c') :
    c.userId = c'.userId := by
  unfold personKey at h
  cases hc : c.userId with
  | none =>
    cases hc' : c'.userId with
    | none => rfl
    | some id =>
      rw [hc, hc'] at h
      cases h
  | some id =>
    cases hc' : c'.userId with
    | none =>
      rw [hc, hc'] at h
      cases h
    | some other =>
      rw [hc, hc'] at h
      cases h
      rfl

theorem isPerson_of_groupOf
    (h : groupOf (personKey env) (startPerson viewerId) mergePerson connections key = some person) :
    IsPerson env viewerId connections (keyText key) person := by
  have hreaches := absorbing.le_groupOf_iff h
  have hstarts : ∃ first, connections.find? (connectionKey env · = keyText key) = some first ∧
      person = { startPerson viewerId first with leftAt := person.leftAt } := by
    have hfind : connections.find? (connectionKey env · = keyText key) =
        (connections.filter (personKey env · = key)).head? := by
      rw [List.head?_filter]
      congr 1
      funext c
      exact decide_eq_decide.mpr connectionKey_eq_iff
    rw [hfind]
    unfold groupOf at h
    cases hrows : connections.filter (personKey env · = key) with
    | nil =>
      rw [hrows] at h
      cases h
    | cons first rest =>
      rw [hrows] at h
      cases h
      exact ⟨first, rfl, foldl_mergePerson _⟩
  constructor
  · exact hstarts
  · intro c hc hkey
    obtain ⟨first, hfirst, heq⟩ := hstarts
    have hfound := List.find?_some hfirst
    have hfirstKey : connectionKey env first = keyText key := of_decide_eq_true hfound
    rw [heq]
    have hsame : personKey env c = personKey env first := by
      rw [connectionKey_eq_iff.mp hkey, connectionKey_eq_iff.mp hfirstKey]
    exact userId_of_personKey hsame
  · have htop := hreaches ⊤
    simp only [top_le_iff] at htop
    rw [show person.leftAt = none ↔ departure person.leftAt = ⊤ from Iff.rfl, htop]
    simp only [connectionKey_eq_iff]
    rfl
  · intro time htime
    have hdeparture : departure person.leftAt = (time : WithTop ℕ) := congrArg departure htime
    have hbound : ∀ c ∈ connections, connectionKey env c = keyText key →
        departure c.leftAt ≤ (time : WithTop ℕ) := by
      intro c hc hkey
      rw [← hdeparture]
      exact (hreaches _).mpr ⟨c, hc, connectionKey_eq_iff.mp hkey, le_rfl⟩
    constructor
    · obtain ⟨c, hc, hkey, hle⟩ := (hreaches (time : WithTop ℕ)).mp hdeparture.ge
      have hkey' := connectionKey_eq_iff.mpr hkey
      have heq : departure c.leftAt = (time : WithTop ℕ) := le_antisymm (hbound c hc hkey') hle
      exact ⟨c, hc, hkey', heq⟩
    · intro c hc hkey left hleft
      have hle := hbound c hc hkey
      rw [hleft] at hle
      exact WithTop.coe_le_coe.mp hle

theorem joinedAt_of_group {group : PersonKey × MeetingPerson}
    (h : group ∈ connections.foldl (addRow (personKey env) (startPerson viewerId) mergePerson) []) :
    ∃ c ∈ connections, group.2.joinedAt = c.joinedAt := by
  obtain ⟨first, hfirst, heq⟩ := (isPerson_of_groupOf (groupOf_of_mem h)).starts
  exact ⟨first, List.mem_of_find?_eq_some hfirst, by rw [heq]; rfl⟩

/-- The people come in the order in which they first joined. -/
theorem joinedAt_pairwise (hordered : connections.Pairwise fun a b => a.joinedAt ≤ b.joinedAt) :
    (groupPeople env connections viewerId).Pairwise fun a b => a.joinedAt ≤ b.joinedAt := by
  unfold groupPeople
  rw [addConnection_eq, List.pairwise_map]
  induction connections using List.reverseRecOn with
  | nil => exact List.Pairwise.nil
  | append_singleton connections connection ih =>
    obtain ⟨hbefore, -, hlast⟩ := List.pairwise_append.mp hordered
    have hsorted := ih hbefore
    rw [List.foldl_append, List.foldl_cons, List.foldl_nil, addRow]
    split
    · rw [List.pairwise_map]
      refine hsorted.imp ?_
      intro a b hab
      split <;> split <;> exact hab
    · refine List.pairwise_append.mpr ⟨hsorted, List.pairwise_singleton .., ?_⟩
      intro group hgroup other hother
      obtain rfl := List.mem_singleton.mp hother
      obtain ⟨c, hc, heq⟩ := joinedAt_of_group hgroup
      rw [heq]
      exact hlast c hc connection (List.mem_singleton_self _)

variable (env viewerId connections) in
theorem groupPeople_forall₂ : List.Forall₂ (IsPerson env viewerId connections)
    (keysInOrder env connections) (groupPeople env connections viewerId) := by
  have hkeys : keysInOrder env connections =
      (connections.foldl (addRow (personKey env) (startPerson viewerId) mergePerson) []).map
        fun group => keyText group.1 := by
    have hnamed : keysOf (fun c => keyText (personKey env c)) connections =
        (keysOf (personKey env) connections).map keyText :=
      keysOf_map keyText_injective connections
    have hfst : (connections.foldl (addRow (personKey env) (startPerson viewerId) mergePerson)
        []).map Prod.fst = keysOf (personKey env) connections := map_fst_foldl ..
    rw [← hfst, List.map_map] at hnamed
    rw [keysInOrder, List.map_congr_left fun c _ => connectionKey_eq env c]
    exact hnamed
  rw [hkeys, groupPeople, addConnection_eq, List.forall₂_map_left_iff, List.forall₂_map_right_iff,
    List.forall₂_same]
  intro group hgroup
  exact isPerson_of_groupOf (groupOf_of_mem hgroup)

/-- When a person left follows from when their connections did, in whatever order. -/
theorem leftAt_of_perm {text : String} {closed : List Connection} {person' : MeetingPerson}
    (h : IsPerson env viewerId connections text person)
    (h' : IsPerson env viewerId closed text person')
    (hperm : ((closed.filter (connectionKey env · = text)).map (·.leftAt)).Perm
      ((connections.filter (connectionKey env · = text)).map (·.leftAt))) :
    person'.leftAt = person.leftAt := by
  have hleft : ∀ left, (∃ c ∈ closed, connectionKey env c = text ∧ c.leftAt = left) ↔
      ∃ c ∈ connections, connectionKey env c = text ∧ c.leftAt = left := by
    intro left
    simpa [and_assoc] using hperm.mem_iff (a := left)
  cases hperson : person.leftAt with
  | none => exact h'.stays.mpr ((hleft none).mpr (h.stays.mp hperson))
  | some time =>
    obtain ⟨⟨c, hc, hkey, htime⟩, hlatest⟩ := h.latest time hperson
    obtain ⟨c', hc', hkey', htime'⟩ := (hleft (some time)).mpr ⟨c, hc, hkey, htime⟩
    cases hperson' : person'.leftAt with
    | none =>
      have hstays := h.stays.mpr ((hleft none).mp (h'.stays.mp hperson'))
      rw [hperson] at hstays
      cases hstays
    | some time' =>
      obtain ⟨hsome, hlatest'⟩ := h'.latest time' hperson'
      obtain ⟨d, hd, hdkey, hdtime⟩ := (hleft (some time')).mp hsome
      have hle := hlatest d hd hdkey time' hdtime
      have hge := hlatest' c' hc' hkey' time htime'
      rw [le_antisymm hle hge]

end People

/-- The list has one person for each key, in the order of the first joins. A person's first join is
the earliest of the key's connections, and they have left when the last of these was closed, in
whatever order this was. -/
theorem people_of_connections (env : Environment) (viewerId : Option Uuid)
    (connections : List Connection)
    (hordered : connections.Pairwise fun a b => a.joinedAt ≤ b.joinedAt) :
    ∃ people, groupPeopleIndexed env viewerId connections = some people ∧
      List.Forall₂ (fun key person => IsPerson env viewerId connections key person ∧
          ∀ c ∈ connections, connectionKey env c = key → person.joinedAt ≤ c.joinedAt)
        (keysInOrder env connections) people ∧
      people.Pairwise (fun a b => a.joinedAt ≤ b.joinedAt) ∧
      ∀ closed, closed.map (connectionKey env) = connections.map (connectionKey env) →
        (∀ key, ((closed.filter (connectionKey env · = key)).map (·.leftAt)).Perm
          ((connections.filter (connectionKey env · = key)).map (·.leftAt))) →
        ∃ people', groupPeopleIndexed env viewerId closed = some people' ∧
          people'.map (·.leftAt) = people.map (·.leftAt) := by
  refine ⟨_, groupPeopleIndexed_eq connections, ?_, joinedAt_pairwise hordered, ?_⟩
  · refine (groupPeople_forall₂ env viewerId connections).imp ?_
    intro key person hperson
    refine ⟨hperson, fun c hc hkey => ?_⟩
    obtain ⟨first, hfirst, heq⟩ := hperson.starts
    rw [heq]
    obtain ⟨-, before, after, rfl, hbefore⟩ := List.find?_eq_some_iff_append.mp hfirst
    rcases List.mem_append.mp hc with hmem | hmem
    · have hne := hbefore c hmem
      rw [hkey] at hne
      simp at hne
    · rcases List.mem_cons.mp hmem with rfl | hlater
      · exact le_rfl
      · exact List.rel_of_pairwise_cons (List.pairwise_append.mp hordered).2.1 hlater
  · intro closed hkeys hperm
    refine ⟨_, groupPeopleIndexed_eq closed, ?_⟩
    have hclosed := groupPeople_forall₂ env viewerId closed
    have hopen := groupPeople_forall₂ env viewerId connections
    rw [keysInOrder, hkeys] at hclosed
    rw [keysInOrder] at hopen
    revert hclosed hopen
    generalize (connections.map (connectionKey env)).eraseDups = keys
    generalize groupPeople env closed viewerId = people'
    generalize groupPeople env connections viewerId = people
    intro hclosed hopen
    induction hopen generalizing people' with
    | nil =>
      cases hclosed
      rfl
    | cons hperson _ ih =>
      cases hclosed with
      | cons hperson' hrest =>
        rw [List.map_cons, List.map_cons, ih _ hrest, leftAt_of_perm hperson hperson' (hperm _)]

/-- Ada comes back while a guest of her name is there, and the guest comes back in capitals. -/
def fourConnections : List Connection :=
  [⟨10, some 1, "Ada", 0, some 5, some "Ada", none, none⟩,
    ⟨10, none, "ada", 1, some 3, none, none, none⟩,
    ⟨10, some 1, "Ada", 2, none, some "Ada", none, none⟩,
    ⟨10, none, " ADA ", 4, some 9, none, none, none⟩]

def asciiFolding : Environment :=
  { BadgeNews.plainHashing with
    toLowercase := fun text => String.ofList (text.toList.map Char.toLower) }

theorem fourConnections_twoPeople :
    ∃ people, groupPeopleIndexed asciiFolding none fourConnections = some people ∧
      people.map (·.leftAt) = [none, some 9] ∧
        people.Pairwise fun a b => a.joinedAt ≤ b.joinedAt := by
  obtain ⟨people, hpeople, -, hsorted, -⟩ :=
    people_of_connections asciiFolding none fourConnections (by decide)
  have hleft : (groupPeople asciiFolding fourConnections none).map (·.leftAt) =
      [none, some 9] := by
    decide +kernel
  rw [groupPeopleIndexed_eq] at hpeople
  cases hpeople
  exact ⟨_, groupPeopleIndexed_eq _, hleft, hsorted⟩

end OpenMeet.PeopleIndex
