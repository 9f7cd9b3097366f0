/-!
The XML namespaces of server-to-server streams.
-/

namespace Federation.Namespace

def dialback : String := "jabber:server:dialback"

def dialbackFeature : String := "urn:xmpp:features:dialback"

def streams : String := "http://etherx.jabber.org/streams"

def startTls : String := "urn:ietf:params:xml:ns:xmpp-tls"

def streamErrors : String := "urn:ietf:params:xml:ns:xmpp-streams"

def stanzaErrors : String := "urn:ietf:params:xml:ns:xmpp-stanzas"

def server : String := "jabber:server"

end Federation.Namespace
