import BazelRepo.Library.Pagination
import BazelRepo.Nicknamer2.Relay
import Mathlib.Data.List.Nodup
import Mathlib.Data.UInt

namespace Nicknamer2

open Library

structure DateTime where
  micros : Int
  deriving DecidableEq

structure ServerDao where
  discordServer : Int64
  displayName : String
  createdAt : DateTime
  updatedAt : DateTime
  deriving DecidableEq

structure NameDao where
  discordId : Int64
  discordServer : Int64
  name : String
  createdAt : DateTime
  updatedAt : DateTime
  deriving DecidableEq

structure Database where
  servers : List ServerDao
  names : List NameDao
  unique_servers : (servers.map ServerDao.discordServer).Nodup
  unique_names : (names.map fun row => (row.discordId, row.discordServer)).Nodup

structure Server where
  id : UInt64
  displayName : String
  createdAt : DateTime
  updatedAt : DateTime
  deriving DecidableEq

structure NameId where
  discordId : UInt64
  discordServer : UInt64
  deriving DecidableEq

structure Name where
  id : NameId
  name : String
  createdAt : DateTime
  updatedAt : DateTime
  deriving DecidableEq

/-- An unsigned id is stored by its bits, and ordered as the signed number they are. -/
def storedOrder (id : UInt64) : Int := id.toInt64.toInt

def ServerDao.server (dao : ServerDao) : Server where
  id := dao.discordServer.toUInt64
  displayName := dao.displayName
  createdAt := dao.createdAt
  updatedAt := dao.updatedAt

def NameDao.entity (dao : NameDao) : Name where
  id := { discordId := dao.discordId.toUInt64, discordServer := dao.discordServer.toUInt64 }
  name := dao.name
  createdAt := dao.createdAt
  updatedAt := dao.updatedAt

def Database.list (database : Database) (limit : Nat) (cursor : Option UInt64) : List Server :=
  (rowsAfter (fun dao => dao.discordServer.toInt) (cursor.map storedOrder) limit database.servers).map ServerDao.server

def Database.countServers (database : Database) : Int := database.servers.length

def Database.namesOf (database : Database) (discordServer : UInt64) : List NameDao :=
  database.names.filter fun dao => dao.discordServer = discordServer.toInt64

def Database.listByServer (database : Database) (discordServer : UInt64) (limit : Nat) (cursor : Option UInt64) :
    List Name :=
  (rowsAfter (fun dao => dao.discordId.toInt) (cursor.map storedOrder) limit (database.namesOf discordServer)).map
    NameDao.entity

def Database.countNamesByServer (database : Database) (discordServer : UInt64) : Int :=
  (database.namesOf discordServer).length

def defaultPageSize : Int32 := 10

def maxPageSize : Int32 := 100

def minPageSize : Int32 := 1

structure Edge (ν : Type) where
  cursor : String
  node : ν

structure PageInfo where
  hasNextPage : Bool
  hasPreviousPage : Bool
  startCursor : Option String
  endCursor : Option String
  deriving DecidableEq

structure Connection (ν : Type) where
  edges : List (Edge ν)
  pageInfo : PageInfo
  totalCount : Int32

def decodeAfter (decode : String → Except String UInt64) : Option String → Except String (Option UInt64)
  | none => .ok none
  | some afterCursor => (decode afterCursor).map some

/-- A page of what a table lists behind a cursor, with one row more asked for than is returned. -/
def connection {ν : Type} (decode : String → Except String UInt64) (cursor : ν → String) (count : Int)
    (list : Nat → Option UInt64 → List ν) (first : Option Int32) (after : Option String) :
    Except String (Connection ν) := do
  let requested := first.getD defaultPageSize
  if requested < minPageSize then
    throw s!"Argument 'first' must be at least {minPageSize}, got {requested}"
  let limit := if requested ≤ maxPageSize then requested else maxPageSize
  let cursorValue ← decodeAfter decode after
  let rows := list (limit + 1).toInt.toNat cursorValue
  let hasNextPage := decide (limit.toInt.toNat < rows.length)
  let edges := (if hasNextPage then rows.dropLast else rows).map fun node => { cursor := cursor node, node }
  return {
    edges
    pageInfo := {
      hasNextPage
      hasPreviousPage := cursorValue.isSome
      startCursor := edges.head?.map Edge.cursor
      endCursor := edges.getLast?.map Edge.cursor }
    totalCount := Int32.ofInt count }

/-- What a request is answered from: whether its token is valid, and the tables at the time. -/
structure Context where
  requireAuth : Except String Unit
  database : Database

def servers [SerdeJson] (context : Context) (first : Option Int32) (after : Option String) :
    Except String (Connection Server) := do
  context.requireAuth
  connection (fun encoded => (ServerCursor.decode encoded).map ServerCursor.serverId)
    (fun server => (ServerCursor.mk server.id).encode) context.database.countServers context.database.list first after

def Server.names [SerdeJson] (server : Server) (context : Context) (first : Option Int32) (after : Option String) :
    Except String (Connection Name) :=
  connection (fun encoded => (Cursor.decode encoded).map Cursor.discordId)
    (fun name => (Cursor.mk name.id.discordId).encode) (context.database.countNamesByServer server.id)
    (context.database.listByServer server.id) first after

/-- The pages of requests that each pass the end cursor of the page before, until there is no next page. -/
def follow {ν : Type} (request : Context → Option Int32 → Option String → Except String (Connection ν)) :
    Option String → List (Context × Option Int32) → Except String (List (Connection ν))
  | _, [] => .ok []
  | after, (context, first) :: later => do
    let page ← request context first after
    if page.pageInfo.hasNextPage then
      let rest ← follow request page.pageInfo.endCursor later
      return page :: rest
    else return [page]

def pageSize (first : Option Int32) : Nat := (min (first.getD defaultPageSize).toInt 100).toNat

/-- What a connection is made from: the rows of a table with their ids, and the cursors of what is made of them. -/
structure Listing {δ ν : Type} (rows : Context → List δ) (node : δ → ν) (key : δ → Int) (idOf : ν → UInt64)
    (decode : String → Except String UInt64) (cursor : ν → String) : Prop where
  decode_cursor : ∀ entry, decode (cursor entry) = .ok (idOf entry)
  key_node : ∀ row, storedOrder (idOf (node row)) = key row
  distinct : ∀ context, ((rows context).map key).Nodup

theorem storedOrder_injective : Function.Injective storedOrder := by
  intro id id' same
  have bits := Int64.toInt_inj.mp same
  rw [← UInt64.toUInt64_toInt64 id, bits, UInt64.toUInt64_toInt64]

def Connection.page {ν : Type} (page : Connection ν) : Page ν :=
  { items := page.edges.map Edge.node, hasNext := page.pageInfo.hasNextPage }

section

variable {δ ν : Type} {rows : Context → List δ} {node : δ → ν} {key : δ → Int} {idOf : ν → UInt64}
  {decode : String → Except String UInt64} {cursor : ν → String}

theorem limit_eq {first : Option Int32} (positive : 1 ≤ first.getD defaultPageSize) :
    ¬ first.getD defaultPageSize < minPageSize ∧
      (if first.getD defaultPageSize ≤ maxPageSize then first.getD defaultPageSize else maxPageSize).toInt.toNat =
        pageSize first ∧
      ((if first.getD defaultPageSize ≤ maxPageSize then first.getD defaultPageSize else maxPageSize) + 1).toInt.toNat =
        pageSize first + 1 ∧ 1 ≤ pageSize first := by
  unfold pageSize
  generalize first.getD defaultPageSize = requested at positive ⊢
  have one : (1 : Int32).toInt = 1 := rfl
  have hundred : maxPageSize.toInt = 100 := rfl
  have least : minPageSize.toInt = 1 := rfl
  rw [Int32.le_iff_toInt_le, one] at positive
  refine ⟨?_, ?_⟩
  · rw [Int32.lt_iff_toInt_lt, least]
    omega
  · by_cases small : requested ≤ maxPageSize
    · rw [if_pos small]
      rw [Int32.le_iff_toInt_le, hundred] at small
      have next : (requested + 1).toInt = requested.toInt + 1 := by
        rw [Int32.toInt_add, one]
        exact Int.bmod_eq_of_le (by omega) (by omega)
      rw [next, min_eq_left small]
      omega
    · rw [if_neg small]
      rw [Int32.le_iff_toInt_le, hundred] at small
      have most : min requested.toInt 100 = 100 := min_eq_right (by omega)
      rw [most]
      decide

theorem connection_eq_ok (listing : Listing rows node key idOf decode cursor) {context : Context} {count : Int}
    {first : Option Int32} (positive : 1 ≤ first.getD defaultPageSize) (position : Option ν) :
    ∃ page, connection decode cursor count (fun limit from' =>
        (rowsAfter key (from'.map storedOrder) limit (rows context)).map node) first (position.map cursor) = .ok page ∧
      page.page.items = (pageAfter key (position.map fun entry => storedOrder (idOf entry)) (pageSize first)
        (rows context)).items.map node ∧
      page.page.hasNext = (pageAfter key (position.map fun entry => storedOrder (idOf entry)) (pageSize first)
        (rows context)).hasNext ∧
      page.pageInfo.endCursor = page.page.items.getLast?.map cursor := by
  rcases limit_eq positive with ⟨accepted, limit, fetched, _⟩
  have decoded : decodeAfter decode (position.map cursor) = .ok (position.map idOf) := by
    cases position with
    | none => rfl
    | some entry =>
      change (decode (cursor entry)).map some = _
      rw [listing.decode_cursor]
      rfl
  have start : (position.map idOf).map storedOrder = position.map fun entry => storedOrder (idOf entry) := Option.map_map ..
  have nodes : ∀ entries : List ν,
      (entries.map fun node => { cursor := cursor node, node := node : Edge ν }).map Edge.node = entries := by
    intro entries
    rw [List.map_map]
    exact List.map_id' entries
  have ends : ∀ entries : List ν, (entries.map fun node => { cursor := cursor node, node := node : Edge ν }).getLast?.map
      Edge.cursor = entries.getLast?.map cursor := by
    intro entries
    rw [List.getLast?_map, Option.map_map]
    rfl
  unfold connection pageAfter Connection.page
  simp only [if_neg accepted, limit, fetched, decoded, ok_bind, start]
  generalize rowsAfter key _ _ _ = behind
  refine ⟨_, rfl, ?_, ?_, ?_⟩
  · rw [nodes, List.length_map]
    by_cases more : pageSize first < behind.length
    · rw [if_pos (decide_eq_true more), if_pos more, List.map_dropLast]
    · rw [if_neg (by simpa using more), if_neg more]
  · rw [List.length_map]
    by_cases more : pageSize first < behind.length
    · rw [if_pos more, decide_eq_true more]
    · rw [if_neg more, decide_eq_false more]
  · rw [nodes, ends]

def mapPage (node : δ → ν) (page : Page δ) : Page ν := { items := page.items.map node, hasNext := page.hasNext }

def tables (rows : Context → List δ) (requests : List (Context × Option Int32)) : List (List δ × ℕ) :=
  requests.map fun request => (rows request.1, pageSize request.2)

theorem follow_eq_ok (listing : Listing rows node key idOf decode cursor)
    (request : Context → Option Int32 → Option String → Except String (Connection ν)) (count : Context → Int)
    {requests : List (Context × Option Int32)} (sizes : ∀ asked ∈ requests, 1 ≤ asked.2.getD defaultPageSize)
    (answers : ∀ asked ∈ requests, ∀ after, request asked.1 asked.2 after = connection decode cursor (count asked.1)
      (fun limit from' => (rowsAfter key (from'.map storedOrder) limit (rows asked.1)).map node) asked.2 after) :
    ∀ position : Option ν, ∃ conns, follow request (position.map cursor) requests = .ok conns ∧
      conns.map Connection.page = (pages key (position.map fun entry => storedOrder (idOf entry))
        (tables rows requests)).map (mapPage node) := by
  induction requests with
  | nil => exact fun position => ⟨[], rfl, rfl⟩
  | cons asked later ih =>
    intro position
    rcases asked with ⟨context, first⟩
    rcases @connection_eq_ok δ ν rows node key idOf decode cursor listing context (count context) first
      (sizes _ List.mem_cons_self) position with ⟨page, answered, items, next, ends⟩
    rw [← answers (context, first) List.mem_cons_self] at answered
    have same : page.page = mapPage node (pageAfter key (position.map fun entry => storedOrder (idOf entry))
        (pageSize first) (rows context)) := by
      unfold mapPage
      rw [← items, ← next]
    unfold follow tables
    rw [answered, ok_bind, List.map_cons]
    unfold pages
    dsimp only
    by_cases more : page.pageInfo.hasNextPage = true
    · rw [if_pos more, if_pos (next.symm.trans more)]
      rcases ih (fun asked member => sizes asked (List.mem_cons_of_mem _ member))
        (fun asked member => answers asked (List.mem_cons_of_mem _ member)) page.page.items.getLast? with
        ⟨conns, followed, rest⟩
      have start : page.page.items.getLast?.map (fun entry => storedOrder (idOf entry)) =
          (pageAfter key (position.map fun entry => storedOrder (idOf entry)) (pageSize first)
            (rows context)).items.getLast?.map key := by
        have keys : (fun entry => storedOrder (idOf entry)) ∘ node = key := by
          funext row
          exact listing.key_node row
        rw [items, List.getLast?_map, Option.map_map, keys]
      rw [start] at rest
      rw [ends, followed, ok_bind]
      refine ⟨page :: conns, rfl, ?_⟩
      rw [List.map_cons, List.map_cons, same, rest]
      rfl
    · rw [if_neg more, if_neg fun following => more (next.trans following)]
      exact ⟨[page], rfl, by rw [List.map_cons, List.map_cons, same]; rfl⟩

def returned (idOf : ν → UInt64) (conns : List (Connection ν)) : List UInt64 :=
  conns.flatMap fun page => page.edges.map fun edge => idOf edge.node

def Ended (conns : List (Connection ν)) : Prop := ∃ last, conns.getLast? = some last ∧ last.pageInfo.hasNextPage = false

/-- The pages of requests on a table of ids that changes between them lose and repeat nothing. -/
structure LosesNothing (idOf : ν → UInt64) (ids : Context → List UInt64) (requests : List (Context × Option Int32))
    (conns : List (Connection ν)) : Prop where
  once : (returned idOf conns).Nodup
  complete : Ended conns → ∀ id, (∀ asked ∈ requests.take conns.length, id ∈ ids asked.1) → id ∈ returned idOf conns
  each : ∀ (i : Nat) (page : Connection ν), conns[i]? = some page → ∃ context first, requests[i]? = some (context, first) ∧
    page.edges.length ≤ min (first.getD defaultPageSize).toInt 100 ∧
    (∀ edge ∈ page.edges, idOf edge.node ∈ ids context) ∧
    (page.pageInfo.hasNextPage = true ↔
      ∃ id ∈ ids context, ∀ earlier ∈ returned idOf (conns.take (i + 1)), earlier.toInt64 < id.toInt64)
  ends : ∀ before context first later, requests = before ++ (context, first) :: later →
    (∀ asked ∈ later, ∀ id ∈ ids asked.1, id ∈ ids context) → (ids context).length ≤ later.length → Ended conns

theorem pageSize_eq {first : Option Int32} (positive : 1 ≤ first.getD defaultPageSize) :
    (pageSize first : Int) = min (first.getD defaultPageSize).toInt 100 := by
  have one : (1 : Int32).toInt = 1 := rfl
  rw [Int32.le_iff_toInt_le, one] at positive
  unfold pageSize
  omega

theorem returned_eq (idOf : ν → UInt64) {conns : List (Connection ν)} {all : List (Page δ)}
    (same : conns.map Connection.page = all.map (mapPage node)) :
    returned idOf conns = (all.flatMap Page.items).map fun row => idOf (node row) := by
  have parts : (conns.map Connection.page).flatMap (fun page => page.items.map idOf) =
      (all.map (mapPage node)).flatMap fun page => page.items.map idOf := by
    rw [same]
  rw [List.flatMap_map, List.flatMap_map] at parts
  unfold returned
  rw [List.map_flatMap]
  have left : (fun page : Connection ν => page.edges.map fun edge => idOf edge.node) =
      fun page => page.page.items.map idOf := by
    funext page
    unfold Connection.page
    rw [List.map_map]
    rfl
  have right : (fun page : Page δ => page.items.map fun row => idOf (node row)) =
      fun page => (mapPage node page).items.map idOf := by
    funext page
    unfold mapPage
    rw [List.map_map]
    rfl
  rw [left, right]
  exact parts

theorem ended_iff {conns : List (Connection ν)} {all : List (Page δ)}
    (same : conns.map Connection.page = all.map (mapPage node)) : Ended conns ↔ Finished all := by
  have lasts := congrArg List.getLast? same
  rw [List.getLast?_map, List.getLast?_map] at lasts
  unfold Ended Finished
  constructor
  · rintro ⟨last, found, none⟩
    rw [found, Option.map_some] at lasts
    rcases Option.map_eq_some_iff.mp lasts.symm with ⟨page, listed, equal⟩
    refine ⟨page, listed, ?_⟩
    rw [← none]
    exact congrArg Page.hasNext equal
  · rintro ⟨last, found, none⟩
    rw [found, Option.map_some] at lasts
    rcases Option.map_eq_some_iff.mp lasts with ⟨page, listed, equal⟩
    refine ⟨page, listed, ?_⟩
    rw [← none]
    exact congrArg Page.hasNext equal

theorem returned_upTo {conns : List (Connection ν)} {all : List (Page δ)}
    (same : conns.map Connection.page = all.map (mapPage node)) {i : Nat} {table : Page δ} (listed : all[i]? = some table) :
    returned idOf (conns.take (i + 1)) =
      ((all.take i).flatMap Page.items ++ table.items).map fun row => idOf (node row) := by
  have parts : (conns.take (i + 1)).map Connection.page = (all.take (i + 1)).map (mapPage node) := by
    rw [List.map_take, same, List.map_take]
  rw [returned_eq idOf parts, List.take_add_one, listed, List.flatMap_append]
  simp

theorem losesNothing (listing : Listing rows node key idOf decode cursor) {requests : List (Context × Option Int32)}
    (sizes : ∀ asked ∈ requests, 1 ≤ asked.2.getD defaultPageSize) {conns : List (Connection ν)}
    (same : conns.map Connection.page = (pages key none (tables rows requests)).map (mapPage node)) :
    LosesNothing idOf (fun context => (rows context).map fun row => idOf (node row)) requests conns := by
  have askable : Askable key (tables rows requests) := by
    intro table member
    rcases List.mem_map.mp member with ⟨asked, listed, rfl⟩
    exact ⟨listing.distinct _, (limit_eq (sizes asked listed)).2.2.2⟩
  have keys : ∀ row, storedOrder (idOf (node row)) = key row := listing.key_node
  have all := returned_eq idOf same
  have lengths := congrArg List.length same
  rw [List.length_map, List.length_map] at lengths
  refine ⟨?_, ?_, ?_, ?_⟩
  · rw [all, List.nodup_iff_pairwise_ne, List.pairwise_map]
    apply (sorted_pages none askable).2.imp
    intro row other below equal
    rw [← keys row, ← keys other, equal] at below
    exact lt_irrefl _ below
  · intro ended id throughout
    rw [all, List.mem_map]
    have present : ∀ table ∈ (tables rows requests).take (pages key none (tables rows requests)).length,
        ∃ row ∈ table.1, key row = storedOrder id := by
      intro table member
      rw [← lengths] at member
      unfold tables at member
      rw [← List.map_take] at member
      rcases List.mem_map.mp member with ⟨asked, listed, rfl⟩
      rcases List.mem_map.mp (throughout asked listed) with ⟨row, inside, rfl⟩
      exact ⟨row, inside, (keys row).symm⟩
    rcases complete_pages askable ((ended_iff same).mp ended) nofun present with ⟨row, member, equal⟩
    refine ⟨row, member, storedOrder_injective ?_⟩
    rw [keys row, equal]
  · intro i page found
    have place := congrArg (fun entries => entries[i]?) same
    simp only [List.getElem?_map, found, Option.map_some] at place
    rcases Option.map_eq_some_iff.mp place.symm with ⟨table, listed, equal⟩
    rcases page_at askable listed with ⟨behind, limit, start, asked, exact, before⟩
    unfold tables at asked
    rw [List.getElem?_map] at asked
    rcases Option.map_eq_some_iff.mp asked with ⟨⟨context, first⟩, request, pair⟩
    cases pair
    have items : page.edges.map Edge.node = table.items.map node := congrArg Page.items equal.symm
    have next : page.pageInfo.hasNextPage = table.hasNext := congrArg Page.hasNext equal.symm
    refine ⟨context, first, request, ?_, ?_, ?_⟩
    · have counts := congrArg List.length items
      have bound := exact.bounded
      rw [List.length_map, List.length_map] at counts
      rw [← pageSize_eq (sizes _ (List.mem_of_getElem? request)), counts]
      exact Int.ofNat_le.mpr bound
    · intro edge member
      have shown := List.mem_map_of_mem (f := Edge.node) member
      rw [items] at shown
      rcases List.mem_map.mp shown with ⟨row, inside, made⟩
      rw [← made]
      exact List.mem_map_of_mem (exact.present row inside).1
    · rw [next, returned_upTo same listed]
      constructor
      · intro more
        rcases exact.next more with ⟨row, inside, follows, above⟩
        refine ⟨idOf (node row), List.mem_map_of_mem inside, ?_⟩
        intro earlier member
        rcases List.mem_map.mp member with ⟨item, shown, rfl⟩
        rw [Int64.lt_iff_toInt_lt]
        change storedOrder (idOf (node item)) < storedOrder (idOf (node row))
        rw [keys, keys]
        rcases List.mem_append.mp shown with before' | here
        · exact ((before _).mp follows).2 item before'
        · exact above item here
      · rintro ⟨id, member, follows⟩
        rcases List.mem_map.mp member with ⟨row, inside, rfl⟩
        have above : ∀ item ∈ ((pages key none (tables rows requests)).take i).flatMap Page.items ++ table.items, key item < key row := by
          intro item shown
          have later := follows _ (List.mem_map_of_mem shown)
          rw [Int64.lt_iff_toInt_lt] at later
          change storedOrder (idOf (node item)) < storedOrder (idOf (node row)) at later
          rw [keys, keys] at later
          exact later
        have starts : Behind start (key row) :=
          (before _).mpr ⟨nofun, fun item early => above item (List.mem_append_left _ early)⟩
        rcases exact.complete row inside starts with here | ⟨more, _⟩
        · exact absurd (above row (List.mem_append_right _ here)) (lt_irrefl _)
        · exact more
  · intro before context first later split stopped enough
    rw [ended_iff same]
    have parts : tables rows requests = tables rows before ++ (rows context, pageSize first) :: tables rows later := by
      rw [split]
      unfold tables
      rw [List.map_append, List.map_cons]
    apply finished_pages askable parts
    · intro table member row inside
      rcases List.mem_map.mp member with ⟨asked, listed, rfl⟩
      rcases List.mem_map.mp (stopped asked listed _ (List.mem_map_of_mem inside)) with ⟨other, found, equal⟩
      rw [← keys row, ← equal, keys other]
      exact List.mem_map_of_mem found
    · rw [List.length_map] at enough
      unfold tables
      rw [List.length_map]
      exact enough

end

theorem servers_listing [SerdeJson] : Listing (fun context => context.database.servers) ServerDao.server
    (fun dao => dao.discordServer.toInt) Server.id
    (fun encoded => (ServerCursor.decode encoded).map ServerCursor.serverId)
    (fun server => (ServerCursor.mk server.id).encode) := by
  refine ⟨?_, ?_, ?_⟩
  · intro server
    rw [ServerCursor.decode_encode]
    rfl
  · intro dao
    unfold storedOrder ServerDao.server
    rw [Int64.toInt64_toUInt64]
  · intro context
    have unique := context.database.unique_servers.map (fun a b same => Int64.toInt_inj.mp same : Function.Injective Int64.toInt)
    rw [List.map_map] at unique
    exact unique

theorem names_listing [SerdeJson] (discordServer : UInt64) :
    Listing (fun context => context.database.namesOf discordServer) NameDao.entity (fun dao => dao.discordId.toInt)
      (fun name => name.id.discordId) (fun encoded => (Cursor.decode encoded).map Cursor.discordId)
      (fun name => (Cursor.mk name.id.discordId).encode) := by
  refine ⟨?_, ?_, ?_⟩
  · intro name
    rw [Cursor.decode_encode]
    rfl
  · intro dao
    unfold storedOrder NameDao.entity
    rw [Int64.toInt64_toUInt64]
  · intro context
    have unique := context.database.unique_names
    rw [List.nodup_iff_pairwise_ne, List.pairwise_map] at unique ⊢
    have kept : (context.database.namesOf discordServer).Pairwise fun a b =>
        (a.discordId, a.discordServer) ≠ (b.discordId, b.discordServer) := unique.sublist List.filter_sublist
    apply kept.imp_of_mem
    intro a b left right different same
    have first := of_decide_eq_true (List.mem_filter.mp left).2
    have second := of_decide_eq_true (List.mem_filter.mp right).2
    apply different
    rw [Int64.toInt_inj.mp same, first, second]

/-- Whatever rows come and go between the requests, following the end cursors loses and repeats nothing, for the servers and
for the names of a server; and cursors and Relay ids decode to the ids they encode. -/
theorem pagination_loses_and_repeats_nothing [SerdeJson] :
    (∀ requests : List (Context × Option Int32),
      (∀ asked ∈ requests, asked.1.requireAuth = .ok () ∧ 1 ≤ asked.2.getD defaultPageSize) →
        ∃ pages, follow servers none requests = .ok pages ∧
          LosesNothing Server.id (fun context => context.database.servers.map fun dao => dao.server.id) requests pages) ∧
    (∀ (server : Server) (requests : List (Context × Option Int32)),
      (∀ asked ∈ requests, 1 ≤ asked.2.getD defaultPageSize) →
        ∃ pages, follow server.names none requests = .ok pages ∧
          LosesNothing (fun name => name.id.discordId)
            (fun context => (context.database.namesOf server.id).map fun dao => dao.entity.id.discordId) requests pages) ∧
    (∀ cursor : Cursor, Cursor.decode cursor.encode = .ok cursor) ∧
    (∀ cursor : ServerCursor, ServerCursor.decode cursor.encode = .ok cursor) ∧
    (∀ discordId discordServer, (RelayId.decode (RelayId.encodeName discordId discordServer)).bind RelayId.asName =
      .ok (discordId, discordServer)) ∧
    ∀ discordServer, (RelayId.decode (RelayId.encodeServer discordServer)).bind RelayId.asServer = .ok discordServer := by
  refine ⟨?_, ?_, Cursor.decode_encode, ServerCursor.decode_encode, ?_, ?_⟩
  · intro requests valid
    have sizes : ∀ asked ∈ requests, 1 ≤ asked.2.getD defaultPageSize := fun asked member => (valid asked member).2
    have answers : ∀ asked ∈ requests, ∀ after, servers asked.1 asked.2 after = connection
        (fun encoded => (ServerCursor.decode encoded).map ServerCursor.serverId)
        (fun server => (ServerCursor.mk server.id).encode) asked.1.database.countServers
        (fun limit from' => (rowsAfter (fun dao : ServerDao => dao.discordServer.toInt) (from'.map storedOrder) limit
          asked.1.database.servers).map ServerDao.server) asked.2 after := by
      intro asked member after
      unfold servers
      rw [(valid asked member).1, ok_bind]
      rfl
    rcases follow_eq_ok servers_listing servers
      (fun context => context.database.countServers) sizes answers none with ⟨pages, followed, same⟩
    exact ⟨pages, followed, losesNothing servers_listing sizes same⟩
  · intro server requests sizes
    rcases follow_eq_ok (names_listing server.id) server.names
      (fun context => context.database.countNamesByServer server.id) sizes (fun asked member after => rfl) none with ⟨pages, followed, same⟩
    exact ⟨pages, followed, losesNothing (names_listing server.id) sizes same⟩
  · intro discordId discordServer
    rw [RelayId.decode_encodeName]
    rfl
  · intro discordServer
    rw [RelayId.decode_encodeServer]
    rfl

def serverRow (id : UInt64) : ServerDao := { discordServer := id.toInt64, displayName := "", createdAt := ⟨0⟩, updatedAt := ⟨0⟩ }

def threeServers : Context where
  requireAuth := .ok ()
  database := {
    servers := [serverRow 5, serverRow (2 ^ 63 + 1), serverRow 7]
    names := []
    unique_servers := by decide +kernel
    unique_names := List.nodup_nil }

def twoServers : Context where
  requireAuth := .ok ()
  database := {
    servers := [serverRow 5, serverRow (2 ^ 63 + 1)]
    names := []
    unique_servers := by decide +kernel
    unique_names := List.nodup_nil }

theorem pagination_loses_and_repeats_nothing_sample :
    ∃ pages, @follow Server (@servers memberReader) none [(threeServers, some 1), (twoServers, some 1)] = .ok pages ∧
      returned Server.id pages = [2 ^ 63 + 1, 5] ∧
      LosesNothing Server.id (fun context => context.database.servers.map fun dao => dao.server.id)
        [(threeServers, some 1), (twoServers, some 1)] pages := by
  rcases (@pagination_loses_and_repeats_nothing memberReader).1 [(threeServers, some 1), (twoServers, some 1)]
    (by decide) with ⟨pages, followed, loses⟩
  have ids : (@follow Server (@servers memberReader) none [(threeServers, some 1), (twoServers, some 1)]).map
      (returned Server.id) = .ok [2 ^ 63 + 1, 5] := by
    decide +kernel
  rw [followed] at ids
  exact ⟨pages, followed, Except.ok.inj ids, loses⟩

end Nicknamer2
