import Comp4320.Lib.ByteOrder
import Comp4320.Lib.OnesComplement
import Comp4320.Lib.Corruption
import Comp4320.Lib.Memory
import Comp4320.Lib.System
import Comp4320.Lib.LengthPrefix
import Comp4320.Lib.Pairing
import Comp4320.Lib.Retry
import Comp4320.Lib.SharedServer
import Comp4320.Lib.Lines
import Comp4320.Python
import Comp4320.Cpp
import Comp4320.Display
import Comp4320.Lab1.Text
import Comp4320.Lab1.ServerTCP
import Comp4320.Lab1.ClientTCP
import Comp4320.Lab1.TextService
import Comp4320.Lab1.DisemvowelBlock
import Comp4320.Lab1.ServerUDP
import Comp4320.Lab1.ClientUDP
import Comp4320.Lab1.RequestDecoding
import Comp4320.Lab1.ResultPacking
import Comp4320.Lab1.RequestIds
import Comp4320.Lab1.TwoServers
import Comp4320.Lab1.Visitors
import Comp4320.Lab2.Packet
import Comp4320.Lab2.ServerUDP
import Comp4320.Lab2.ServerValidation
import Comp4320.Lab2.ClientUDP
import Comp4320.Lab2.Checksums
import Comp4320.Lab2.ServerReply
import Comp4320.Lab2.ClientReply
import Comp4320.Lab2.RoundTrip
import Comp4320.Lab2.Framing
import Comp4320.Lab2.Isolation
import Comp4320.Lab2.ServerVerdict
import Comp4320.Lab2.HostListBounds
import Comp4320.Lab2.ReplyKinds
import Comp4320.Lab2.RetryLoop
import Comp4320.Lab2.Execute
import Comp4320.Lab2.ReplyCorruption
import Comp4320.Lab2.Sessions
import Comp4320.Lab2.Service
import Comp4320.Lab2.Noise
import Comp4320.Lab2.Unaddressed
import Comp4320.Lab2.Undetected
import Comp4320.Lab3.ChatServer
import Comp4320.Lab3.Matchmaking
import Comp4320.Lab3.SelfPairing
import Comp4320.Lab3.ChatClient
import Comp4320.Lab3.Agreement
import Comp4320.Lab3.Rendezvous
import Comp4320.Lab3.RendezvousOrder
import Comp4320.Lab3.ChatSession
import Comp4320.Lab3.Transcript
import Comp4320.Lab3.TurnTaking
import Comp4320.Lab3.Settling
import Comp4320.Lab3.ChatRoom
import Comp4320.Lab3.Conversations
import Comp4320.Lab3.Containment
import Comp4320.Lab3.Dialogue
import Comp4320.Lab3.Console
import Comp4320.Lab3.Ending
import Comp4320.Lab3.ChattyChat
