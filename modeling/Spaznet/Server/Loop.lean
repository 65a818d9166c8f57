import Spaznet.Http.ReactorDispatcher
import Spaznet.Http2.ReactorDispatcher

/-!
# Connections of one context

The reactor dispatchers of all connections run on the IO thread of one context, one event at a time,
and count their requests in it.
-/

namespace Spaznet.Server

open Reactor (IOContext)
open Http (Http1Connection)
open Http2 (Http2Connection)

inductive Connection where
  | http1 (env : Http.Env) (c : Http1Connection)
  | http2 (env : Http2.Env) (c : Http2Connection)

structure Loop where
  ctx : IOContext := {}
  connections : List Connection := []

inductive Event where
  /-- A connection is accepted, with the bytes that were read before. -/
  | acceptHttp1 (env : Http.Env) (initialBuffer : Http.Bytes)
  | acceptHttp2 (env : Http2.Env)
  | http1 (i : Nat) (event : Http1Connection.Event)
  | http2 (i : Nat) (event : Http2Connection.Event)

namespace Loop

def step (loop : Loop) : Event → Loop
  | .acceptHttp1 env initialBuffer =>
    let c := Http1Connection.start env loop.ctx initialBuffer
    { ctx := c.ctx, connections := loop.connections ++ [.http1 env c] }
  | .acceptHttp2 env => { loop with connections := loop.connections ++ [.http2 env {}] }
  | .http1 i event =>
    match loop.connections[i]? with
    | some (.http1 env c) =>
      let c := Http1Connection.step env { c with ctx := loop.ctx } event
      { ctx := c.ctx, connections := loop.connections.set i (.http1 env c) }
    | _ => loop
  | .http2 i event =>
    match loop.connections[i]? with
    | some (.http2 env c) =>
      let c := Http2Connection.step env { c with ctx := loop.ctx } event
      { ctx := c.ctx, connections := loop.connections.set i (.http2 env c) }
    | _ => loop

def run (events : List Event) : Loop := Machine.run step {} events

end Loop

end Spaznet.Server
