/-
What the connection-scoped requests to the Control APIs address: the external identifier goes into
the URL as it is, so the path names the resource of the assertion for the identifiers that survive
the reading of a URL, and for no others.
-/
import MuxivoConsole.Infrastructure.ControlRequests
import MuxivoConsole.UuidText

namespace MuxivoConsole

open Uri

/-- The request addresses the operation of the resource that its assertion is signed for. -/
def HttpClient.AddressesClaimed (client : HttpClient) (call : ConnectionCall)
    (request : ControlRequest) : Prop :=
  ∃ externalResourceId, request.assertion.platformResourceId = some externalResourceId ∧
    client.target request =
      Target.ofNames (operationNames request.assertion.organizationId externalResourceId
        call.endpoint.operation)

section Names

variable {dots : Bool}

/-- Lower-case letters, digits and hyphens. -/
def isNameCharacter (character : Char) : Bool :=
  let code := character.toNat
  (97 ≤ code && code ≤ 122) || (48 ≤ code && code ≤ 57) || code == 45

theorem isNameCharacter_dot : isNameCharacter '.' = false := by decide

/-- A name of letters, digits and hyphens is read back. -/
theorem plain_of_nameCharacters {name : List Char} (hname : name.all isNameCharacter = true) :
    Plain dots name := by
  rw [List.all_eq_true] at hname
  have hother : ∀ character, isNameCharacter character = false → character ∉ name := by
    intro character hcharacter hmem
    rw [hname character hmem] at hcharacter
    cases hcharacter
  refine ⟨hother '/' (by decide), fun character hmem => ?_,
    hasEscape_eq_false (hother '%' (by decide)), fun _ => ?_⟩
  · by_contra hends
    simp only [endsPath, Bool.not_eq_false, Bool.or_eq_true, beq_iff_eq] at hends
    rcases hends with rfl | rfl
    · exact hother '?' (by decide) hmem
    · exact hother '#' (by decide) hmem
  · by_contra hdot
    simp only [isDot, Bool.not_eq_false, Bool.or_eq_true, beq_iff_eq] at hdot
    rcases hdot with rfl | rfl
    · exact hother '.' isNameCharacter_dot (by simp)
    · exact hother '.' isNameCharacter_dot (by simp)

theorem isNameCharacter_digitChar {digit : Nat} (hdigit : digit < 16) :
    isNameCharacter (Nat.digitChar digit) = true := by
  have hall : ∀ digit < 16, isNameCharacter (Nat.digitChar digit) = true := by decide
  exact hall digit hdigit

theorem UUID.all_isNameCharacter_str (id : UUID) :
    id.str.toList.all isNameCharacter = true := by
  have hdigits : ∀ character ∈ id.hexDigits, isNameCharacter character = true := by
    intro character hmem
    simp only [UUID.hexDigits, List.mem_map] at hmem
    obtain ⟨position, _, rfl⟩ := hmem
    exact isNameCharacter_digitChar (Nat.mod_lt _ (by decide))
  have htake : ∀ count, (id.hexDigits.take count).all isNameCharacter = true := fun count =>
    List.all_eq_true.mpr fun character hmem => hdigits character (List.mem_of_mem_take hmem)
  have hdrop : ∀ start, (id.hexDigits.drop start).all isNameCharacter = true := fun start =>
    List.all_eq_true.mpr fun character hmem => hdigits character (List.mem_of_mem_drop hmem)
  have hmiddle : ∀ start count,
      ((id.hexDigits.drop start).take count).all isNameCharacter = true := fun start count =>
    List.all_eq_true.mpr fun character hmem =>
      hdigits character (List.mem_of_mem_drop (List.mem_of_mem_take hmem))
  have hhyphen : isNameCharacter '-' = true := by decide
  simp only [UUID.str, String.toList_ofList, List.all_append, List.all_cons, htake, hdrop,
    hmiddle, hhyphen, Bool.and_true]

theorem ConnectionCall.all_isNameCharacter_operation (call : ConnectionCall) :
    call.endpoint.operation.toList.all isNameCharacter = true := by
  cases call <;> decide

/-- All names on the path but the external identifier are read back. -/
theorem plain_operationNames_iff {organizationId : UUID} {externalResourceId : String}
    {call : ConnectionCall} :
    (∀ name ∈ operationNames organizationId externalResourceId call.endpoint.operation,
        Plain dots name) ↔
      Plain dots externalResourceId.toList := by
  constructor
  · intro hall
    exact hall _ (by simp [operationNames])
  · intro hexternal name hname
    have hconstants : ∀ constant ∈ ["control", "v1", "organizations", "connections"],
        constant.toList.all isNameCharacter = true := by decide
    simp only [operationNames, List.mem_cons, List.not_mem_nil, or_false] at hname
    rcases hname with rfl | rfl | rfl | rfl | rfl | rfl | rfl
    · exact plain_of_nameCharacters (hconstants _ (by simp))
    · exact plain_of_nameCharacters (hconstants _ (by simp))
    · exact plain_of_nameCharacters (hconstants _ (by simp))
    · exact plain_of_nameCharacters organizationId.all_isNameCharacter_str
    · exact plain_of_nameCharacters (hconstants _ (by simp))
    · exact hexternal
    · exact plain_of_nameCharacters call.all_isNameCharacter_operation

end Names

section Requests

variable {client : HttpClient} {call : ConnectionCall} {caller : ControlCaller}
  {connection : PlatformConnection} {request : ControlRequest}

theorem HttpClient.target_eq (hrequest : call.request caller connection = .ok request) :
    client.target request = Uri.target client.dots
      (absolute (operationNames connection.fields.organizationId
        connection.fields.externalResourceId call.endpoint.operation)) := by
  rw [HttpClient.target, (ConnectionCall.request_eq_ok hrequest).1, toList_connectionUrl]

/-- A request addresses the resource of its assertion exactly if the identifier is plain. -/
theorem HttpClient.addressesClaimed_iff (hrequest : call.request caller connection = .ok request) :
    client.AddressesClaimed call request ↔
      Plain client.dots connection.fields.externalResourceId.toList := by
  obtain ⟨_, horganization, hresource⟩ := ConnectionCall.request_eq_ok hrequest
  unfold HttpClient.AddressesClaimed
  rw [horganization, hresource, client.target_eq hrequest]
  simp only [Option.some.injEq, exists_eq_left']
  rw [target_absolute_iff, plain_operationNames_iff]

/-- Two requests with plain identifiers that have one path are for one operation of one
connection. -/
theorem HttpClient.same_of_path_eq {other : ConnectionCall} {another : ControlCaller}
    {neighbour : PlatformConnection} {rival : ControlRequest}
    (hrequest : call.request caller connection = .ok request)
    (hrival : other.request another neighbour = .ok rival)
    (hplain : Plain client.dots connection.fields.externalResourceId.toList)
    (hneighbour : Plain client.dots neighbour.fields.externalResourceId.toList)
    (hpath : (client.target request).segments = (client.target rival).segments) :
    connection.fields.organizationId = neighbour.fields.organizationId ∧
      connection.fields.externalResourceId = neighbour.fields.externalResourceId ∧
      call.endpoint.operation = other.endpoint.operation := by
  rw [client.target_eq hrequest, client.target_eq hrival,
    target_absolute (plain_operationNames_iff.mpr hplain),
    target_absolute (plain_operationNames_iff.mpr hneighbour)] at hpath
  have hnames := Target.segments_ofNames_injective hpath
  simp only [operationNames, List.cons.injEq, String.toList_inj, and_true, true_and] at hnames
  exact ⟨UUID.str_injective hnames.1, hnames.2⟩

end Requests

/-- A request that is sent for a connection addresses the operation of the resource that its
assertion is signed for exactly if the external identifier is plain; and requests for plain
identifiers have one path only if they are for one operation of one connection. -/
theorem control_requests_address_the_claimed_resource (client : HttpClient) :
    (∀ call caller connection request, client.Sends call caller connection request →
      (client.AddressesClaimed call request ↔
        Plain client.dots connection.fields.externalResourceId.toList)) ∧
    ∀ call caller connection request other another neighbour rival,
      client.Sends call caller connection request → client.Sends other another neighbour rival →
      Plain client.dots connection.fields.externalResourceId.toList →
      Plain client.dots neighbour.fields.externalResourceId.toList →
      (client.target request).segments = (client.target rival).segments →
        connection.fields.organizationId = neighbour.fields.organizationId ∧
          connection.fields.externalResourceId = neighbour.fields.externalResourceId ∧
          call.endpoint.operation = other.endpoint.operation := by
  constructor
  · intro call caller connection request hsends
    exact HttpClient.addressesClaimed_iff hsends.1
  · intro call caller connection request other another neighbour rival hsends hrival hplain
      hneighbour hpath
    exact HttpClient.same_of_path_eq hsends.1 hrival.1 hplain hneighbour hpath

namespace ControlAddressExample

/-- A client that takes printable ASCII and resolves dot components. -/
def client : HttpClient where
  takes reference := reference.all fun character => 32 ≤ character.toNat && character.toNat < 127
  dots := true

def caller : ControlCaller where
  actorId := 1
  correlationId := 2
  identities := none

/-- A connection to a Discord server. -/
def server (externalResourceId : String) : PlatformConnectionFields where
  id := 3
  organizationId := 4
  platform := .discord
  externalResourceId := externalResourceId
  status := .active

def plainConnection : PlatformConnection where
  fields := server "8"
  accepted := by decide +kernel

/-- An identifier that ends the path. -/
def connection : PlatformConnection where
  fields := server "8?"
  accepted := by decide +kernel

def request (externalResourceId operation : String) : ControlRequest where
  verb := .get
  url := connectionUrl 4 externalResourceId operation
  assertion :=
    { actorId := 1
      organizationId := 4
      resource := .controlModules
      action := .read
      correlationId := 2
      platformResourceId := some externalResourceId }

theorem sends_dashboard : client.Sends .getForConnection caller connection
    (request "8?" "dashboard") :=
  ⟨by decide +kernel, by decide +kernel⟩

theorem sends_channels : client.Sends .getChannelCatalogForConnection caller connection
    (request "8?" "channels") :=
  ⟨by decide +kernel, by decide +kernel⟩

end ControlAddressExample

open ControlAddressExample in
theorem control_requests_address_the_claimed_resource_plain :
    client.AddressesClaimed .getForConnection (request "8" "dashboard") ∧
      Plain true "8".toList := by
  have hsends : client.Sends .getForConnection caller plainConnection (request "8" "dashboard") :=
    ⟨by decide +kernel, by decide +kernel⟩
  have hplain : Plain true "8".toList := plain_of_nameCharacters (by decide)
  exact ⟨((control_requests_address_the_claimed_resource client).1 _ _ _ _ hsends).mpr hplain,
    hplain⟩

open ControlAddressExample in
/-- With a question mark in the identifier no request reaches its operation, and the requests for
the dashboard and for the channels have one path. -/
theorem question_mark_ends_the_path :
    client.Sends .getForConnection caller connection (request "8?" "dashboard") ∧
      ¬ client.AddressesClaimed .getForConnection (request "8?" "dashboard") ∧
      client.Sends .getChannelCatalogForConnection caller connection (request "8?" "channels") ∧
      (client.target (request "8?" "dashboard")).segments =
        (client.target (request "8?" "channels")).segments ∧
      ConnectionCall.getForConnection.endpoint.operation ≠
        ConnectionCall.getChannelCatalogForConnection.endpoint.operation := by
  refine ⟨sends_dashboard, fun haddresses => ?_, sends_channels, by decide +kernel, by decide⟩
  have hplain := (HttpClient.addressesClaimed_iff sends_dashboard.1).mp haddresses
  have hends := hplain.inPath '?' (by decide)
  exact absurd hends (by decide)

end MuxivoConsole
