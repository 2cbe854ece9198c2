import OracleThin.ConnectString.Build

/-!
# The descriptors that the driver sends

The listener and the authentication are sent a descriptor for the one address that was reached. It is put together
from texts: the fields of the description, its unknown keys, and for the listener the identity of the client.
-/

namespace OracleThin.ConnectString

/-! ### Client identities -/

structure ClientIdentity where
  program : Text
  machine : Text
  osuser : Text
  terminal : Text
  driverName : Text
deriving DecidableEq

inductive IdentityError
  | invalidClientIdentity (field reason : String)
deriving DecidableEq, Repr

/-- The characters that fit in thirty bytes, with the bytes that are there already. -/
def sanitizeChars (field : String) : Nat → Text → Except IdentityError Text
  | _, [] => .ok []
  | size, c :: cs =>
    if isControl c then .error (.invalidClientIdentity field "control characters are not allowed")
    else if size + c.utf8Size > 30 then .ok []
    else (c :: ·) <$> sanitizeChars field (size + c.utf8Size) cs

def sanitizeIdentityField (field : String) (value : Text) : Except IdentityError Text :=
  if trim value = [] then .error (.invalidClientIdentity field "value must not be empty")
  else sanitizeChars field 0 (trim value)

def ClientIdentity.new (program machine osuser terminal driverName : Text) : Except IdentityError ClientIdentity := do
  let program ← sanitizeIdentityField "program" program
  let machine ← sanitizeIdentityField "machine" machine
  let osuser ← sanitizeIdentityField "osuser" osuser
  let terminal ← sanitizeIdentityField "terminal" terminal
  let driverName ← sanitizeIdentityField "driver_name" driverName
  return { program, machine, osuser, terminal, driverName }

/-! ### Clauses -/

/-- The address that was reached, with the service name of its description. -/
structure EasyConnect where
  host : Text
  port : UInt16
  serviceName : Text
  protocol : Protocol
deriving DecidableEq

/-- A pair as it is written out, with its key as it is. -/
def clause (key : String) (value : Text) : Text := ['('] ++ key.toList ++ ['='] ++ value ++ [')']

def extraClauses (extra : List (Text × Text)) : Text :=
  extra.flatMap fun (key, value) => ['('] ++ key ++ ['='] ++ value ++ [')']

def descriptorAddressClause (descriptor : EasyConnect) : Text :=
  clause "ADDRESS" (clause "PROTOCOL" descriptor.protocol.asStr ++ clause "HOST" descriptor.host ++
    clause "PORT" (toString descriptor.port).toList)

/-- The clause is left open. -/
def authConnectDataClauseFromService (description : Description) (fallbackServiceName : Option Text) : Text :=
  let connectData := description.connectData
  let serviceName := connectData.serviceName.or (fallbackServiceName.filter fun name => name ≠ [])
  "(CONNECT_DATA=".toList ++ serviceName.elim [] (clause "SERVICE_NAME") ++
    (match connectData.instanceName, connectData.sid with
      | some instanceName, _ => clause "INSTANCE_NAME" instanceName
      | none, some sid => clause "SID" sid
      | none, none => []) ++
    (if serviceName.isNone && connectData.instanceName.isNone && connectData.sid.isNone then clause "SERVICE_NAME" []
      else [])

def serverClause (serverType : Option ServerType) : Text :=
  serverType.elim [] fun server => clause "SERVER" server.asStr

def listenerConnectDataClause (description : Description) (identity : ClientIdentity) (serverTypeEmon : Bool) :
    Text :=
  authConnectDataClauseFromService description none ++
    (if serverTypeEmon then clause "SERVER" "emon".toList else serverClause description.connectData.serverType) ++
    extraClauses description.connectData.extra ++
    clause "CID" (clause "PROGRAM" identity.program ++ clause "HOST" identity.machine ++
      clause "USER" identity.osuser) ++ [')']

def authConnectDataClause (description : Description) (descriptor : EasyConnect) : Text :=
  authConnectDataClauseFromService description (some descriptor.serviceName) ++
    serverClause description.connectData.serverType ++ extraClauses description.connectData.extra ++ [')']

def isTokenAuth (key : Text) : Bool := toAsciiUppercase key = "TOKEN_AUTH".toList

def descriptorSecurityClause (protocol : Protocol) (description : Description) (tokenAuth sslServerDnMatch : Bool)
    (sslServerCertDn : Option Text) : Text :=
  let security := description.security
  if !protocol.isTls && !tokenAuth && sslServerDnMatch && sslServerCertDn.isNone && security.extra = [] then []
  else
    clause "SECURITY"
      ((if protocol.isTls || !sslServerDnMatch then
          clause "SSL_SERVER_DN_MATCH" (if sslServerDnMatch then "ON".toList else "OFF".toList) else []) ++
        sslServerCertDn.elim [] (clause "SSL_SERVER_CERT_DN") ++
        extraClauses (security.extra.filter fun entry => !isTokenAuth entry.1) ++
        (if tokenAuth then clause "TOKEN_AUTH" "OCI_TOKEN".toList else []))

def listenerConnectDescriptorWithServer (descriptor : EasyConnect) (description : Description)
    (identity : ClientIdentity)
    (serverTypeEmon tokenAuth sslServerDnMatch : Bool) (sslServerCertDn : Option Text) : Text :=
  clause "DESCRIPTION" (descriptorAddressClause descriptor ++
    listenerConnectDataClause description identity serverTypeEmon ++
    descriptorSecurityClause descriptor.protocol description tokenAuth sslServerDnMatch sslServerCertDn)

def authConnectDescriptor (descriptor : EasyConnect) (description : Description) (tokenAuth sslServerDnMatch : Bool)
    (sslServerCertDn : Option Text) : Text :=
  clause "DESCRIPTION" (descriptorAddressClause descriptor ++ authConnectDataClause description descriptor ++
    descriptorSecurityClause descriptor.protocol description tokenAuth sslServerDnMatch sslServerCertDn)

/-- The endpoint for an address of a description with a host. -/
def endpoint (description : Description) (address : Address) (host : Text) : EasyConnect where
  host := host
  port := address.port
  serviceName := description.connectData.serviceName.getD []
  protocol := address.protocol

end OracleThin.ConnectString
