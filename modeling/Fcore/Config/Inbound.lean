import Fcore.Api.ConnRows
import Fcore.Memory.Nodes

/-!
The links and proxies that an inbound renders (`src/config/inbound.rs`,
`src/config/clash.rs`).

* `StreamFields`, `H2Fields`: the settings of an inbound, read from their JSON;
* `Rendering`: what other crates do with texts, the derivation of a public key, the
  parts of an address put together, JSON, Base64 and YAML;
* `createLink`: `create_link`, with one function for each protocol;
* `proxy`, `clash`: the proxies of a Clash configuration;
* `vlessParts`, `createLink_eq`: the parts of a link of VLESS;
* `Agrees`: a link and a proxy say the same; `renderings_agree_iff`: they do exactly if
  the inbound has no settings that come before those of its tag;
  `not_agrees_grpc_settings`: an inbound where they differ.
-/

namespace Fcore

open Calculus

/-! ### Settings -/

/-- `inbound::Network`. -/
inductive Network where
  | xhttp
  | grpc
  | tcp
  | ws
  deriving DecidableEq, Repr

structure GrpcSettings where
  serviceName : String
  deriving DecidableEq, Repr

structure RealitySettings where
  serverNames : List String
  publicKey : String
  shortIds : List String
  deriving DecidableEq, Repr

structure XhttpSettings where
  path : String
  deriving DecidableEq, Repr

/-- `inbound::TcpRequest`; a header is looked up by its name. -/
structure TcpRequest where
  path : List String
  headers : Option (String → Option (List String))

structure TcpHeader where
  request : Option TcpRequest

structure TcpSettings where
  header : Option TcpHeader

/-- The fields of `inbound::StreamSettings`. -/
structure StreamFields where
  network : Network
  tcpSettings : Option TcpSettings
  realitySettings : Option RealitySettings
  grpcSettings : Option GrpcSettings
  xhttpSettings : Option XhttpSettings

/-- The fields of `h2::H2Settings` that a link needs. -/
structure H2Fields where
  host : String
  insecure : Bool
  upMbps : Option ℕ
  deriving DecidableEq, Repr

/-! ### What other crates do -/

/-- The parts of a link: what is parsed, the query pairs that are appended and the
fragment that is set. -/
structure UrlParts where
  base : String
  pairs : List (String × String)
  fragment : String
  deriving DecidableEq, Repr

/-- The value of a query parameter. -/
def UrlParts.param (parts : UrlParts) (key : String) : Option String :=
  (parts.pairs.find? fun pair => pair.1 == key).map Prod.snd

/-- The record of a Vmess link. -/
structure VmessConnection where
  ps : String
  add : String
  port : String
  id : String
  host : String
  path : String
  deriving DecidableEq, Repr

/-- A proxy of a Clash configuration, with the fields that depend on the inbound. -/
inductive ClashProxy where
  | vmess (name server : String) (port : UInt16) (uuid host path : String)
  | vless (name server : String) (port : UInt16)
      (uuid network servername publicKey shortId : String)
      (grpcServiceName : Option String) (httpPath : Option String) (flow : Option String)
  deriving DecidableEq, Repr

/-- The name of a proxy. -/
def ClashProxy.name : ClashProxy → String
  | .vmess name .. => name
  | .vless name .. => name

/-- `ClashConfig`, with the fields that depend on the proxies. -/
structure ClashConfig where
  proxies : List ClashProxy
  proxyNames : List String
  deriving DecidableEq, Repr

/-- The functions of other crates that a rendering uses. -/
structure Rendering where
  ip : IpText
  stream : StreamSettings → StreamFields
  h2 : H2Settings → H2Fields
  pubkey : WgKeys → Except Error String
  url : UrlParts → Except Error String
  json : VmessConnection → String
  base64 : String → String
  yaml : ClashConfig → String

namespace Tag

/-- The text of a tag (`Display`). -/
def toText : Tag → String
  | .vlessTcpReality => "VlessTcpReality"
  | .vlessGrpcReality => "VlessGrpcReality"
  | .vlessXhttpReality => "VlessXhttpReality"
  | .vmess => "Vmess"
  | .shadowsocks => "Shadowsocks"
  | .wireguard => "Wireguard"
  | .hysteria2 => "Hysteria2"
  | .mtproto => "Mtproto"

end Tag

/-- `Option::ok_or`, with a custom error. -/
def orCustom {α : Type} (o : Option α) (text : String) : Except Error α :=
  match o with
  | some x => .ok x
  | none => .error (.custom text)

/-! ### Links -/

namespace Inbound

variable (r : Rendering)

/-- The text of an `Ipv4Addr`. -/
def addressText (address : BitVec 32) : String := r.ip.toText (.v4 address)

/-- What the links of VLESS are parsed from. -/
def vlessBase (inbound : Inbound) (connId : Uuid) (address : BitVec 32) : String :=
  "vless://" ++ connId.asHyphenated ++ "@" ++ addressText r address ++ ":" ++
    toString inbound.port.toNat

/-- The fragment of a link of VLESS. -/
def vlessFragment (connId : Uuid) (label kind : String) : String :=
  label ++ " | " ++ getUuidLastOctetSimple connId ++ " " ++ kind

/-- The stream settings of an inbound, decoded. -/
def streamFields (inbound : Inbound) : Option StreamFields := inbound.streamSettings.map r.stream

/-- The parts of the link of `vless_xtls`. -/
def vlessXtlsParts (inbound : Inbound) (connId : Uuid) (address : BitVec 32) (label : String) :
    Except Error UrlParts := do
  let s ← orCustom (inbound.streamFields r) "Missing stream settings"
  let reality ← orCustom s.realitySettings "Missing reality settings"
  let sid ← orCustom reality.shortIds.head? "Missing SID"
  let sni ← orCustom reality.serverNames.head? "Missing SNI"
  return { base := inbound.vlessBase r connId address
           pairs := [("security", "reality"), ("flow", "xtls-rprx-vision"), ("type", "tcp"),
             ("sni", sni), ("fp", "chrome"), ("pbk", reality.publicKey), ("sid", sid)]
           fragment := vlessFragment connId label "XTLS" }

/-- `vless_xtls`. -/
def vlessXtls (inbound : Inbound) (connId : Uuid) (address : BitVec 32) (label : String) :
    Except Error String :=
  inbound.vlessXtlsParts r connId address label >>= r.url

/-- The parts of the link of `vless_grpc`. -/
def vlessGrpcParts (inbound : Inbound) (connId : Uuid) (address : BitVec 32) (label : String) :
    Except Error UrlParts := do
  let s ← orCustom (inbound.streamFields r) "Missing stream settings"
  let reality ← orCustom s.realitySettings "Missing reality settings"
  let grpc ← orCustom s.grpcSettings "Missing gRPC settings"
  return { base := inbound.vlessBase r connId address
           pairs := [("security", "reality"), ("type", "grpc"), ("serviceName", grpc.serviceName),
             ("sni", reality.serverNames.head?.getD ""), ("pbk", reality.publicKey),
             ("sid", reality.shortIds.head?.getD "")]
           fragment := vlessFragment connId label "GRPC" }

/-- `vless_grpc`. -/
def vlessGrpc (inbound : Inbound) (connId : Uuid) (address : BitVec 32) (label : String) :
    Except Error String :=
  inbound.vlessGrpcParts r connId address label >>= r.url

/-- The parts of the link of `vless_xhttp`. -/
def vlessXhttpParts (inbound : Inbound) (connId : Uuid) (address : BitVec 32) (label : String) :
    Except Error UrlParts := do
  let s ← orCustom (inbound.streamFields r) "Missing stream settings"
  let reality ← orCustom s.realitySettings "Missing reality settings"
  let xhttp ← orCustom s.xhttpSettings "Missing xHTTP settings"
  return { base := inbound.vlessBase r connId address
           pairs := [("security", "reality"), ("type", "xhttp"), ("path", xhttp.path),
             ("pbk", reality.publicKey)]
           fragment := vlessFragment connId label "XHTTP" }

/-- `vless_xhttp`. -/
def vlessXhttp (inbound : Inbound) (connId : Uuid) (address : BitVec 32) (label : String) :
    Except Error String :=
  inbound.vlessXhttpParts r connId address label >>= r.url

/-- `h2`. -/
def h2Link (inbound : Inbound) (label : String) (conn : Conn) : Except Error String := do
  let h2 ← orCustom (inbound.h2.map r.h2) "Hysteria2 settings missing"
  let token ← orCustom conn.proto.token "H2 Token is required"
  r.url
    { base := "hysteria2://" ++ token.asHyphenated ++ "@" ++ h2.host ++ ":" ++
        toString inbound.port.toNat
      pairs := [("insecure", toString h2.insecure), ("up-mbps", toString (h2.upMbps.getD 0))]
      fragment := label ++ " | " ++ getUuidLastOctetSimple token ++ " H2" }

/-- `vmess`. -/
def vmessLink (inbound : Inbound) (connId : Uuid) (address : BitVec 32) (label : String) :
    Except Error String := do
  let s ← orCustom (inbound.streamFields r) "VMESS: stream settings error"
  let tcp ← orCustom s.tcpSettings "VMESS: stream tcp settings error"
  let header ← orCustom tcp.header "VMESS: header tcp settings error"
  let req ← orCustom header.request "VMESS: header req settings error"
  let headers ← orCustom req.headers "VMESS: headers settings error"
  let hosts ← orCustom (headers "Host") "VMESS: host settings error"
  let host ← orCustom hosts.head? "VMESS: Host stream settings error"
  let path ← orCustom req.path.head? "VMESS: path settings error"
  let json := r.json
    { ps := "Vmess " ++ label
      add := addressText r address
      port := toString inbound.port.toNat
      id := connId.asHyphenated
      host := host
      path := path }
  return "vmess://" ++ r.base64 json ++ "#" ++ label

/-- `mtproto`. -/
def mtproto (inbound : Inbound) (address : BitVec 32) (label : String) : Except Error String := do
  let secret ← orCustom inbound.mtprotoSecret "Mtproto settings missing"
  r.url
    { base := "https://t.me/proxy?server=" ++ addressText r address ++ "&port=" ++
        toString inbound.port.toNat ++ "&secret=" ++ secret
      pairs := []
      fragment := label }

/-- `wireguard`: the configuration of a client. -/
def wireguard (inbound : Inbound) (connId : Uuid) (conn : Conn) (address : BitVec 32)
    (label : String) : Except Error String := do
  let param ← orCustom conn.proto.wg "WG Conn is not configured"
  let wg ← orCustom inbound.wg "WG Inbound is not configured"
  let serverPubkey ← r.pubkey wg.keys
  let dns := ",".intercalate (wg.dns.map (addressText r))
  return "\n    [Interface]\n    PrivateKey = " ++ param.keys.privkey ++
    "\n    Address    = " ++ param.address.toText r.ip ++
    "\n    DNS        = " ++ dns ++
    "\n\n    [Peer]\n    PublicKey           = " ++ serverPubkey ++
    "\n    Endpoint            = " ++ addressText r address ++ ":" ++ toString wg.port.toNat ++
    "\n    AllowedIPs          = 0.0.0.0/0, ::/0\n    PersistentKeepalive = 25\n\n    # " ++
      label ++
    " — conn_id: " ++ connId.asHyphenated ++ "\n    "

/-- `create_link`. -/
def createLink (inbound : Inbound) (connId : Uuid) (conn : Conn) (address : BitVec 32)
    (label : String) : Except Error String :=
  match inbound.tag with
  | .vlessTcpReality => inbound.vlessXtls r connId address label
  | .vlessGrpcReality => inbound.vlessGrpc r connId address label
  | .vlessXhttpReality => inbound.vlessXhttp r connId address label
  | .hysteria2 => inbound.h2Link r label conn
  | .wireguard => inbound.wireguard r connId conn address label
  | .mtproto => inbound.mtproto r address label
  | .vmess => inbound.vmessLink r connId address label
  | .shadowsocks => .error (.custom "Unsupported protocol tag")

/-! ### Proxies -/

/-- How a proxy is named. -/
def proxyName (inbound : Inbound) (connId : Uuid) (label : String) : String :=
  label ++ " [" ++ inbound.tag.toText ++ "] " ++ getUuidLastOctetSimple connId

/-- The network of a VLESS proxy with its options: the service name of gRPC, the path of
xHTTP and the flow. -/
def vlessNetwork (s : StreamFields) :
    Option (String × Option String × Option String × Option String) :=
  match s.grpcSettings, s.xhttpSettings, s.network with
  | some grpc, _, _ => some ("grpc", some grpc.serviceName, none, none)
  | none, some xhttp, _ => some ("xhttp", none, some xhttp.path, none)
  | none, none, .tcp => some ("tcp", none, none, some "xtls-rprx-vision")
  | none, none, _ => none

/-- `proxy`. -/
def proxy (inbound : Inbound) (connId : Uuid) (address : BitVec 32) (label : String) :
    Option ClashProxy := do
  let s ← inbound.streamFields r
  match inbound.tag with
  | .vmess =>
      let tcp ← s.tcpSettings
      let header ← tcp.header
      let req ← header.request
      let headers ← req.headers
      let hosts ← headers "Host"
      let host ← hosts.head?
      return .vmess (inbound.proxyName connId label) (addressText r address) inbound.port
        connId.asHyphenated host (req.path.head?.getD "/")
  | .vlessGrpcReality | .vlessTcpReality | .vlessXhttpReality =>
      let reality ← s.realitySettings
      let (network, grpcServiceName, httpPath, flow) ← vlessNetwork s
      return .vless (inbound.proxyName connId label) (addressText r address) inbound.port
        connId.asHyphenated network (reality.serverNames.head?.getD "") reality.publicKey
        (reality.shortIds.head?.getD "") grpcServiceName httpPath flow
  | _ => none

/-- `clash`. -/
def clash (proxies : List ClashProxy) : ClashConfig := ⟨proxies, proxies.map ClashProxy.name⟩

/-! ### A link and a proxy of one inbound -/

/-- The inbound has a tag of VLESS. -/
def IsVless (inbound : Inbound) : Prop :=
  inbound.tag = .vlessTcpReality ∨ inbound.tag = .vlessGrpcReality ∨
    inbound.tag = .vlessXhttpReality

/-- The parts of a link of VLESS. -/
def vlessParts (inbound : Inbound) (connId : Uuid) (address : BitVec 32) (label : String) :
    Except Error UrlParts :=
  match inbound.tag with
  | .vlessTcpReality => inbound.vlessXtlsParts r connId address label
  | .vlessGrpcReality => inbound.vlessGrpcParts r connId address label
  | .vlessXhttpReality => inbound.vlessXhttpParts r connId address label
  | _ => .error (.custom "Unsupported protocol tag")

/-- The proxy has what the parts of a link of VLESS say. -/
structure SameVless (parts : UrlParts) (server : String) (port : UInt16)
    (uuid network publicKey : String) (grpcServiceName httpPath flow : Option String) : Prop where
  base : parts.base = "vless://" ++ uuid ++ "@" ++ server ++ ":" ++ toString port.toNat
  type : parts.param "type" = some network
  flow : parts.param "flow" = some "xtls-rprx-vision" ↔ flow = some "xtls-rprx-vision"
  publicKey : parts.param "pbk" = some publicKey
  serviceName : parts.param "serviceName" = grpcServiceName
  path : parts.param "path" = httpPath

/-- A link of VLESS and a proxy say the same. -/
def Agrees (parts : UrlParts) : ClashProxy → Prop
  | .vless _ server port uuid network _ publicKey _ grpcServiceName httpPath flow =>
      SameVless parts server port uuid network publicKey grpcServiceName httpPath flow
  | .vmess .. => False

/-- No settings are there that the proxy prefers to those of the tag. -/
def OwnSettings (inbound : Inbound) : Prop :=
  ∀ s, inbound.streamFields r = some s →
    (inbound.tag = .vlessTcpReality → s.grpcSettings = none ∧ s.xhttpSettings = none) ∧
      (inbound.tag = .vlessXhttpReality → s.grpcSettings = none)

section

variable {r : Rendering} {inbound : Inbound} {connId : Uuid} {address : BitVec 32} {label : String}

lemma createLink_eq (h : inbound.IsVless) (conn : Conn) :
    inbound.createLink r connId conn address label =
      inbound.vlessParts r connId address label >>= r.url := by
  obtain h | h | h := h
  all_goals
    rw [createLink, vlessParts, h]
    rfl

/-- What a proxy of VLESS is made of. -/
lemma proxy_eq_some (h : inbound.IsVless) {p : ClashProxy}
    (hp : inbound.proxy r connId address label = some p) :
    ∃ s reality network grpcServiceName httpPath flow, inbound.streamFields r = some s ∧
      s.realitySettings = some reality ∧
      vlessNetwork s = some (network, grpcServiceName, httpPath, flow) ∧
      p = .vless (inbound.proxyName connId label) (addressText r address) inbound.port
        connId.asHyphenated network (reality.serverNames.head?.getD "") reality.publicKey
        (reality.shortIds.head?.getD "") grpcServiceName httpPath flow := by
  rw [proxy] at hp
  obtain ⟨s, hs, hp⟩ := Option.bind_eq_some_iff.mp hp
  have htag : (do
      let reality ← s.realitySettings
      let (network, grpcServiceName, httpPath, flow) ← vlessNetwork s
      return ClashProxy.vless (inbound.proxyName connId label) (addressText r address) inbound.port
        connId.asHyphenated network (reality.serverNames.head?.getD "") reality.publicKey
        (reality.shortIds.head?.getD "") grpcServiceName httpPath flow) = some p := by
    obtain h | h | h := h
    all_goals
      rw [h] at hp
      exact hp
  obtain ⟨reality, hreality, hp⟩ := Option.bind_eq_some_iff.mp htag
  obtain ⟨⟨network, grpcServiceName, httpPath, flow⟩, hnetwork, hp⟩ :=
    Option.bind_eq_some_iff.mp hp
  exact ⟨s, reality, network, grpcServiceName, httpPath, flow, hs, hreality, hnetwork,
    (Option.some.inj hp).symm⟩

/-- The parts of a link of VLESS, by its tag. -/
lemma vlessParts_eq_ok {s : StreamFields} {reality : RealitySettings} {parts : UrlParts}
    (hs : inbound.streamFields r = some s) (hreality : s.realitySettings = some reality)
    (h : inbound.vlessParts r connId address label = .ok parts) :
    parts.base = inbound.vlessBase r connId address ∧
      parts.param "pbk" = some reality.publicKey ∧
      ((inbound.tag = .vlessTcpReality ∧ parts.param "type" = some "tcp" ∧
          parts.param "flow" = some "xtls-rprx-vision" ∧ parts.param "serviceName" = none ∧
          parts.param "path" = none) ∨
        (inbound.tag = .vlessGrpcReality ∧ parts.param "type" = some "grpc" ∧
          parts.param "flow" = none ∧ parts.param "path" = none ∧
          ∃ grpc, s.grpcSettings = some grpc ∧
            parts.param "serviceName" = some grpc.serviceName) ∨
        inbound.tag = .vlessXhttpReality ∧ parts.param "type" = some "xhttp" ∧
          parts.param "flow" = none ∧ parts.param "serviceName" = none ∧
          ∃ xhttp, s.xhttpSettings = some xhttp ∧ parts.param "path" = some xhttp.path) := by
  rw [vlessParts] at h
  cases htag : inbound.tag with
  | vlessTcpReality =>
      simp only [htag, vlessXtlsParts, hs, hreality, orCustom, bind, Except.bind] at h
      cases hsid : reality.shortIds.head? with
      | none => simp [hsid] at h
      | some sid =>
          cases hsni : reality.serverNames.head? with
          | none => simp [hsid, hsni] at h
          | some sni =>
              simp only [hsid, hsni] at h
              cases h
              simp [UrlParts.param]
  | vlessGrpcReality =>
      simp only [htag, vlessGrpcParts, hs, hreality, orCustom, bind, Except.bind] at h
      cases hgrpc : s.grpcSettings with
      | none => simp [hgrpc] at h
      | some grpc =>
          simp only [hgrpc] at h
          cases h
          simp [UrlParts.param]
  | vlessXhttpReality =>
      simp only [htag, vlessXhttpParts, hs, hreality, orCustom, bind, Except.bind] at h
      cases hxhttp : s.xhttpSettings with
      | none => simp [hxhttp] at h
      | some xhttp =>
          simp only [hxhttp] at h
          cases h
          simp [UrlParts.param]
  | vmess | shadowsocks | wireguard | hysteria2 | mtproto =>
      simp [htag] at h

/-- The network of a proxy: gRPC before xHTTP before TCP. -/
lemma vlessNetwork_eq_some {s : StreamFields} {network : String}
    {grpcServiceName httpPath flow : Option String}
    (h : vlessNetwork s = some (network, grpcServiceName, httpPath, flow)) :
    (∃ grpc, s.grpcSettings = some grpc ∧ network = "grpc" ∧
        grpcServiceName = some grpc.serviceName ∧ httpPath = none ∧ flow = none) ∨
      (∃ xhttp, s.grpcSettings = none ∧ s.xhttpSettings = some xhttp ∧ network = "xhttp" ∧
        grpcServiceName = none ∧ httpPath = some xhttp.path ∧ flow = none) ∨
      s.grpcSettings = none ∧ s.xhttpSettings = none ∧ network = "tcp" ∧ grpcServiceName = none ∧
        httpPath = none ∧ flow = some "xtls-rprx-vision" := by
  rw [vlessNetwork] at h
  cases hgrpc : s.grpcSettings with
  | some grpc =>
      simp only [hgrpc] at h
      cases h
      exact .inl ⟨grpc, rfl, rfl, rfl, rfl, rfl⟩
  | none =>
      cases hxhttp : s.xhttpSettings with
      | some xhttp =>
          simp only [hgrpc, hxhttp] at h
          cases h
          exact .inr (.inl ⟨xhttp, rfl, rfl, rfl, rfl, rfl, rfl⟩)
      | none =>
          simp only [hgrpc, hxhttp] at h
          cases hnetwork : s.network with
          | tcp =>
              simp only [hnetwork] at h
              cases h
              exact .inr (.inr ⟨rfl, rfl, rfl, rfl, rfl, rfl⟩)
          | xhttp | grpc | ws => simp [hnetwork] at h

end

/-- **Links and proxies of VLESS.**  Where both can be rendered, the link of an inbound and its
proxy agree exactly if the inbound has no settings that the proxy prefers to those of its
tag: neither gRPC nor xHTTP settings with TCP, and no gRPC settings with xHTTP. -/
theorem renderings_agree_iff (r : Rendering) (inbound : Inbound) (connId : Uuid) (conn : Conn)
    (address : BitVec 32) (label text : String) (p : ClashProxy) (hvless : inbound.IsVless)
    (hlink : inbound.createLink r connId conn address label = .ok text)
    (hproxy : inbound.proxy r connId address label = some p) :
    ∃ parts, inbound.vlessParts r connId address label = .ok parts ∧ r.url parts = .ok text ∧
      (Agrees parts p ↔ inbound.OwnSettings r) := by
  rw [createLink_eq hvless] at hlink
  obtain ⟨parts, hparts, hurl⟩ := of_bind_eq_ok hlink
  refine ⟨parts, hparts, hurl, ?_⟩
  obtain ⟨s, reality, network, grpcServiceName, httpPath, flow, hs, hreality, hnetwork, rfl⟩ :=
    proxy_eq_some hvless hproxy
  obtain ⟨hbase, hpbk, htag⟩ := vlessParts_eq_ok hs hreality hparts
  have hown : inbound.OwnSettings r ↔
      (inbound.tag = .vlessTcpReality → s.grpcSettings = none ∧ s.xhttpSettings = none) ∧
        (inbound.tag = .vlessXhttpReality → s.grpcSettings = none) := by
    rw [OwnSettings, hs]
    simp
  have hagrees : Agrees parts (.vless (inbound.proxyName connId label) (addressText r address)
      inbound.port connId.asHyphenated network (reality.serverNames.head?.getD "")
      reality.publicKey (reality.shortIds.head?.getD "") grpcServiceName httpPath flow) ↔
      parts.param "type" = some network ∧
        (parts.param "flow" = some "xtls-rprx-vision" ↔ flow = some "xtls-rprx-vision") ∧
        parts.param "serviceName" = grpcServiceName ∧ parts.param "path" = httpPath := by
    constructor
    · intro h
      exact ⟨h.type, h.flow, h.serviceName, h.path⟩
    · rintro ⟨htype, hflow, hservice, hpath⟩
      exact ⟨hbase, htype, hflow, hpbk, hservice, hpath⟩
  rw [hagrees, hown]
  rcases htag with ⟨htag, htype, hflow, hservice, hpath⟩ |
    ⟨htag, htype, hflow, hpath, grpc, hgrpc, hservice⟩ |
    ⟨htag, htype, hflow, hservice, xhttp, hxhttp, hpath⟩
  all_goals
    rw [htag, htype, hflow, hservice, hpath]
    rcases vlessNetwork_eq_some hnetwork with ⟨grpc', hgrpc', rfl, rfl, rfl, rfl⟩ |
      ⟨xhttp', hgrpc', hxhttp', rfl, rfl, rfl, rfl⟩ | ⟨hgrpc', hxhttp', rfl, rfl, rfl, rfl⟩
    all_goals simp_all

/-- A rendering of one xHTTP inbound, with its settings of gRPC; a link is its parts in a row,
with the blanks in the fragment encoded. -/
def xhttpRendering (grpc : Option GrpcSettings) : Rendering where
  ip := sampleIpText
  stream _ := ⟨.xhttp, none, some ⟨["example.com"], "pbk", ["ab"]⟩, grpc, some ⟨"x"⟩⟩
  h2 _ := ⟨"", false, none⟩
  pubkey _ := .error (.custom "Private key must be exactly 32 bytes")
  url parts := .ok (parts.base ++ "?" ++
    "&".intercalate (parts.pairs.map fun q => q.1 ++ "=" ++ q.2) ++ "#" ++
      String.ofList (parts.fragment.toList.flatMap fun c => if c = ' ' then "%20".toList else [c]))
  json _ := ""
  base64 s := s
  yaml _ := ""

/-- An xHTTP inbound, with the JSON of its settings of gRPC. -/
def xhttpInbound (grpcJson : String) : Inbound where
  tag := .vlessXhttpReality
  port := 443
  streamSettings := some ⟨"\x7b\"network\":\"xhttp\",\"realitySettings\":\x7b" ++
    "\"serverNames\":[\"example.com\"],\"privateKey\":\"key\",\"publicKey\":\"pbk\"," ++
    "\"shortIds\":[\"ab\"],\"target\":\"example.com:443\"\x7d,\"grpcSettings\":" ++ grpcJson ++
    ",\"xhttpSettings\":\x7b\"path\":\"x\"\x7d\x7d"⟩
  uplink := none
  downlink := none
  connCount := none
  wg := none
  h2 := none
  mtprotoSecret := none

/-- Without settings of gRPC both renderings of the inbound say the same. -/
theorem renderings_agree_xhttp :
    ∃ text p parts,
      (xhttpInbound "null").createLink (xhttpRendering none) 1 sampleMtproto 0x0A000002 "node" =
        .ok text ∧
      (xhttpInbound "null").proxy (xhttpRendering none) 1 0x0A000002 "node" = some p ∧
      (xhttpInbound "null").vlessParts (xhttpRendering none) 1 0x0A000002 "node" = .ok parts ∧
      Agrees parts p := by
  obtain ⟨parts, hparts, -, hagrees⟩ := renderings_agree_iff (xhttpRendering none)
    (xhttpInbound "null") 1 sampleMtproto 0x0A000002 "node" _ _ (.inr (.inr rfl)) rfl rfl
  refine ⟨_, _, parts, rfl, rfl, hparts, hagrees.mpr ?_⟩
  rintro s ⟨⟩
  exact ⟨nofun, fun _ => rfl⟩

/-- **With settings of gRPC beside those of xHTTP** the link says `xhttp` and the proxy `grpc`. -/
theorem not_agrees_grpc_settings :
    ∃ text p parts, (xhttpInbound "\x7b\"serviceName\":\"g\"\x7d").IsVless ∧
      (xhttpInbound "\x7b\"serviceName\":\"g\"\x7d").createLink (xhttpRendering (some ⟨"g"⟩))
        1 sampleMtproto 0x0A000002 "node" = .ok text ∧
      (xhttpInbound "\x7b\"serviceName\":\"g\"\x7d").proxy (xhttpRendering (some ⟨"g"⟩))
        1 0x0A000002 "node" = some p ∧
      (xhttpInbound "\x7b\"serviceName\":\"g\"\x7d").vlessParts (xhttpRendering (some ⟨"g"⟩))
        1 0x0A000002 "node" = .ok parts ∧
      (xhttpRendering (some ⟨"g"⟩)).url parts = .ok text ∧ ¬ Agrees parts p := by
  refine ⟨_, _, _, .inr (.inr rfl), rfl, rfl, rfl, rfl, fun h => ?_⟩
  have htype : some "xhttp" = some "grpc" := h.type
  exact absurd htype (by decide)

end Inbound

end Fcore
