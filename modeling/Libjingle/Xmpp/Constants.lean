import Libjingle.Xml.XmlElement

/-! The names of the stanzas and of what is in them. -/

namespace Libjingle

def nsClient : String := "jabber:client"
def nsStream : String := "http://etherx.jabber.org/streams"
def nsTls : String := "urn:ietf:params:xml:ns:xmpp-tls"
def nsSasl : String := "urn:ietf:params:xml:ns:xmpp-sasl"
def nsBind : String := "urn:ietf:params:xml:ns:xmpp-bind"
def nsSession : String := "urn:ietf:params:xml:ns:xmpp-session"
def nsRoster : String := "jabber:iq:roster"
def nsGoogleAuthProtocol : String := "http://www.google.com/talk/protocol/auth"
def nsCaps : String := "http://jabber.org/protocol/caps"
def nsNickname : String := "http://jabber.org/protocol/nick"
def nsDelay : String := "jabber:x:delay"
def nsTuenti : String := "http://tuenti.com/jabber"
def nsStanza : String := "urn:ietf:params:xml:ns:xmpp-stanzas"

def qnIq : QName := ⟨"jabber:client", "iq"⟩
def qnTo : QName := ⟨"", "to"⟩
def qnFrom : QName := ⟨"", "from"⟩
def qnType : QName := ⟨"", "type"⟩
def qnId : QName := ⟨"", "id"⟩
def qnVersion : QName := ⟨"", "version"⟩
def qnStreamStream : QName := ⟨nsStream, "stream"⟩
def qnStreamFeatures : QName := ⟨nsStream, "features"⟩
def qnStreamError : QName := ⟨nsStream, "error"⟩
def qnTlsStartTls : QName := ⟨nsTls, "starttls"⟩
def qnTlsProceed : QName := ⟨nsTls, "proceed"⟩
def qnSaslMechanisms : QName := ⟨nsSasl, "mechanisms"⟩
def qnSaslMechanism : QName := ⟨nsSasl, "mechanism"⟩
def qnSaslChallenge : QName := ⟨nsSasl, "challenge"⟩
def qnSaslSuccess : QName := ⟨nsSasl, "success"⟩
def qnGoogleAuthClientUsesFullBindResult : QName :=
  ⟨nsGoogleAuthProtocol, "client-uses-full-bind-result"⟩
def qnGoogleAllowNonGoogleIdXmppLogin : QName := ⟨nsGoogleAuthProtocol, "allow-non-google-login"⟩
def qnBindBind : QName := ⟨nsBind, "bind"⟩
def qnBindResource : QName := ⟨nsBind, "resource"⟩
def qnBindJid : QName := ⟨nsBind, "jid"⟩
def qnSessionSession : QName := ⟨nsSession, "session"⟩
def qnPresence : QName := ⟨nsClient, "presence"⟩
def qnRosterQuery : QName := ⟨nsRoster, "query"⟩
def qnRosterItem : QName := ⟨nsRoster, "item"⟩
def qnRosterGroup : QName := ⟨nsRoster, "group"⟩
def qnJid : QName := ⟨"", "jid"⟩
def qnSubscription : QName := ⟨"", "subscription"⟩
def qnAsk : QName := ⟨"", "ask"⟩
def qnName : QName := ⟨"", "name"⟩
def qnShow : QName := ⟨nsClient, "show"⟩
def qnStatus : QName := ⟨nsClient, "status"⟩
def qnPriority : QName := ⟨nsClient, "priority"⟩
def qnNode : QName := ⟨"", "node"⟩
def qnCapsC : QName := ⟨nsCaps, "c"⟩
def qnVer : QName := ⟨"", "ver"⟩
def qnExt : QName := ⟨"", "ext"⟩
def qnNickname : QName := ⟨nsNickname, "nick"⟩
def qnDelayX : QName := ⟨nsDelay, "x"⟩
def qnStamp : QName := ⟨"", "stamp"⟩
def qnTuentiData : QName := ⟨nsTuenti, "tuentidata"⟩
def qnTuentiCaps : QName := ⟨nsTuenti, "capabilities"⟩
def qnTuentiVoice : QName := ⟨nsTuenti, "voip"⟩
def qnError : QName := ⟨nsClient, "error"⟩
def qnCode : QName := ⟨"", "code"⟩
def qnStanzaFeatureNotImplemented : QName := ⟨nsStanza, "feature-not-implemented"⟩

end Libjingle
